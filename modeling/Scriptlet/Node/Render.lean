import Scriptlet.Node

/-! The parenthesised form of a tree, in which the debug trace and some messages show it:
`-1 * (-3 + 4)` is `(* (- 1) (grouping (+ (- 3) 4)))`. -/
namespace Scriptlet

inductive RenderFault where
  | unknown (sort : String)
  | tooDeep
  deriving DecidableEq, Repr

namespace Node

mutual

/-- Renders a tree that needs at most `budget` nested steps. -/
def render (budget : Nat) (n : Node) : Except RenderFault String :=
  match budget with
  | 0 => .error .tooDeep
  | b + 1 =>
    match n with
    | binary left operator right => do
      let l ← left.render b
      let r ← right.render b
      return "(" ++ operator.lexeme ++ " " ++ l ++ " " ++ r ++ ")"
    | unary operator operand => do
      return "(" ++ operator.lexeme ++ " " ++ (← operand.render b) ++ ")"
    | grouping inner => do return "(grouping " ++ (← inner.render b) ++ ")"
    | literal t => return t.lexeme
    | reference name => return name.lexeme
    | assign name value => do return name.lexeme ++ " = " ++ (← value.render b)
    | declare name missing => return "(var " ++ name.lexeme ++ ")"
    | declare name initial => do
      return "(var " ++ name.lexeme ++ " " ++ (← initial.render b) ++ ")"
    | print value => do return "(print " ++ (← value.render b) ++ ")"
    | expression value => do return "(expr " ++ (← value.render b) ++ ")"
    | block statements => do return "(block" ++ (← renderAll (b - 1) statements) ++ ")"
    | n => .error (.unknown n.sort)

/-- Renders trees in order, each after a space. -/
def renderAll (budget : Nat) : List Node → Except RenderFault String
  | [] => return ""
  | n :: ns => do
    let first ← n.render budget
    return " " ++ first ++ (← renderAll budget ns)

end

end Node

end Scriptlet
