import Scriptlet.Run.Evaluate

/-! The meaning of statements. -/
namespace Scriptlet

namespace Action

/-- Traces the statement to be executed. -/
def traceStatement (level budget : Nat) (n : Node) : Action Unit :=
  if 1 ≤ level then shown budget n >>= fun text => record level (.executed text)
  else return ()

/-- Declares a variable. -/
def declare (level : Nat) (name : Token) (value : Value) : Action Unit := do
  define name.lexeme value
  record level (.defined name.lexeme value)

/-- Runs the body of a block in a scope of its own. Its end is traced only if it is reached. -/
def block (level : Nat) (body : Action Unit) : Action Unit := do
  within do
    record level (.pushed (← depth))
    body
  record level (.popped ((← depth) + 1))

end Action

namespace Node

/-- The value with which a variable is declared. -/
def initialValue (level : Nat) (initial : Node) (budget : Nat) : Action Value :=
  match initial with
  | missing => return .nil
  | _ => initial.evaluate level budget

mutual

/-- Executes a statement, tracing at a debug level, in at most `budget` nested steps. -/
def execute (level : Nat) (n : Node) (budget : Nat) : Action Unit :=
  if budget = 0 then throw .tooDeep
  else do
    Action.traceStatement level (budget - 1) n
    match n with
    | expression value => discard (value.evaluate level (budget - 1))
    | print value => value.evaluate level (budget - 1) >>= fun v => Action.print v.display
    | declare name initial =>
      initial.initialValue level (budget - 1) >>= Action.declare level name
    | block statements => Action.block level (executeAll level statements (budget - 1))
    | n => Action.fail (.unknownStatement n.sort)

/-- Executes statements in order, up to the first fault. -/
def executeAll (level : Nat) (ns : List Node) (budget : Nat) : Action Unit :=
  match ns with
  | [] => return ()
  | n :: ns => do
    n.execute level budget
    executeAll level ns budget

end

end Node

/-- Runs a program. Too much nesting is then an error like any other. -/
def interpret (level : Nat) (statements : List Node) : Action Unit :=
  tryCatch (Node.executeAll level statements nestingLimit) fun fault =>
    match fault with
    | .tooDeep => Action.fail .tooDeep
    | _ => throw fault

end Scriptlet
