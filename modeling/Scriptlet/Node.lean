import Scriptlet.Token

/-! Program trees. A tree read from a stored program may be ill-formed: a statement can stand where
an expression belongs, and a token or nothing at all where a tree belongs. Such trees are
represented too; they fail when they are run. -/
namespace Scriptlet

inductive Node where
  | missing
  | token (t : Token)
  | binary (left : Node) (operator : Token) (right : Node)
  | unary (operator : Token) (operand : Node)
  | grouping (inner : Node)
  | literal (token : Token)
  | reference (name : Token)
  | assign (name : Token) (value : Node)
  /-- Without an initial value, `initial` is `missing`. -/
  | declare (name : Token) (initial : Node)
  | print (value : Node)
  | expression (value : Node)
  | block (statements : List Node)

namespace Node

/-- The name of the sort of a tree, by which messages and stored programs call it. -/
def sort : Node → String
  | missing => "NoneType"
  | token _ => "Token"
  | binary _ _ _ => "Binary"
  | unary _ _ => "Unary"
  | grouping _ => "Grouping"
  | literal _ => "Literal"
  | reference _ => "Variable"
  | assign _ _ => "Assign"
  | declare _ _ => "VarDecl"
  | print _ => "Print"
  | expression _ => "ExprStmt"
  | block _ => "Block"

/-- How deep recursion over a tree goes: a step for each level, and two for a block. -/
def height : Node → Nat
  | missing | token _ | literal _ | reference _ => 1
  | binary left _ right => max left.height right.height + 1
  | unary _ n | grouping n | assign _ n | declare _ n | print n | expression n => n.height + 1
  | block statements => heights statements + 2
where
  heights : List Node → Nat
    | [] => 0
    | n :: ns => max n.height (heights ns)

end Node

/-- How many nested steps a recursive procedure may take before it gives up. -/
def nestingLimit : Nat := 1000

end Scriptlet
