import Scriptlet.Decimal.Numeral
import Scriptlet.Run.Machine

/-! The meaning of expressions. Operands are evaluated from left to right and all of them before the
operator is looked at. -/
namespace Scriptlet

/-- The value that a literal token stands for. -/
def Token.value (t : Token) : Except Fault Value :=
  match t.kind with
  | .number =>
    match readNumber? t.lexeme with
    | some x => .ok (.number x)
    | none => .error (.numeral t.lexeme)
  | .string => .ok (.string t.lexeme)
  | .keyword .true => .ok (.bool true)
  | .keyword .false => .ok (.bool false)
  | .keyword .nil => .ok .nil
  | _ => .error (.error (.invalidLiteral t.lexeme))

/-- An operator on two numbers. Arithmetic has no quotient by zero. -/
def Symbol.onNumbers (s : Symbol) (x y : Float) : Option (Except Fault Value) :=
  match s with
  | .plus => some (.ok (.number (x + y)))
  | .minus => some (.ok (.number (x - y)))
  | .star => some (.ok (.number (x * y)))
  | .slash => some (if y == 0 then .error .quotientByZero else .ok (.number (x / y)))
  | .equalEqual => some (.ok (.bool (x == y)))
  | .bangEqual => some (.ok (.bool (x != y)))
  | .greater => some (.ok (.bool (x > y)))
  | .greaterEqual => some (.ok (.bool (x ≥ y)))
  | .less => some (.ok (.bool (x < y)))
  | .lessEqual => some (.ok (.bool (x ≤ y)))
  | _ => none

/-- An operator applied to two values. Only numbers and, with a plus sign, strings have
operators. -/
def TokenKind.onValues (operator : TokenKind) (left right : Value) : Option (Except Fault Value) :=
  match operator, left, right with
  | .symbol s, .number x, .number y => s.onNumbers x y
  | .symbol .plus, .string a, .string b => some (.ok (.string (a ++ b)))
  | _, _, _ => none

/-- Dividing by zero is an error whatever is divided. -/
def TokenKind.dividesByZero (operator : TokenKind) (right : Value) : Bool :=
  match operator, right with
  | .symbol .slash, .number y => y == 0
  | _, _ => false

namespace Action

def unary (operator : Token) (operand : Value) : Action Value :=
  match operator.kind with
  | .symbol .minus =>
    match operand with
    | .number x => return .number (-x)
    | _ => fail (.operand operand)
  | .symbol .bang => return .bool (!operand.truthy)
  | _ => fail (.invalidUnary operator.lexeme)

/-- Applies a binary operator; `whole` is the expression that a failure shows. -/
def binary (budget : Nat) (whole : Node) (operator : Token) (left right : Value) :
    Action Value :=
  if operator.kind.dividesByZero right then fail .divisionByZero
  else
    match operator.kind.onValues left right with
    | some result => liftM result
    | none => shown budget whole >>= fun text => fail (.uninterpretable text)

/-- Changes a variable; the value is also that of the assignment. -/
def reassign (level : Nat) (name : Token) (value : Value) : Action Value := do
  assign name.lexeme value
  record level (.assigned name.lexeme value)
  return value

/-- Traces the value of an expression. -/
def traceValue (level budget : Nat) (n : Node) (value : Value) : Action Value :=
  if 3 ≤ level then do
    let text ← shown budget n
    record level (.evaluated text value)
    return value
  else return value

end Action

namespace Node

/-- Evaluates an expression, tracing at a debug level, in at most `budget` nested steps. -/
def evaluate (level : Nat) (n : Node) (budget : Nat) : Action Value :=
  if budget = 0 then throw .tooDeep
  else
    let value : Action Value := match n with
      | literal t => liftM t.value
      | grouping inner => inner.evaluate level (budget - 2)
      | reference name => Action.lookup name.lexeme
      | assign name value => value.evaluate level (budget - 2) >>= Action.reassign level name
      | unary operator operand =>
        operand.evaluate level (budget - 3) >>= Action.unary operator
      | binary left operator right => do
        let x ← left.evaluate level (budget - 3)
        let y ← right.evaluate level (budget - 3)
        Action.binary (budget - 3) n operator x y
      | n => Action.fail (.unknownExpression n.sort)
    value >>= Action.traceValue level (budget - 1) n

/-- The value of an expression where no name is bound. -/
def closedValue (n : Node) : Except Fault Value := ((n.evaluate 0 nestingLimit).on .initial).1

end Node

end Scriptlet
