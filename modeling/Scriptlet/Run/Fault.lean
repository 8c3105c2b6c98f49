import Scriptlet.Text.Quoted
import Scriptlet.Value

/-! What can go wrong while a script runs. A `RuntimeError` is the script's own fault; the other
faults need a tree that no script has, or too much nesting. -/
namespace Scriptlet

inductive RuntimeError where
  | undefinedVariable (name : String)
  | divisionByZero
  /-- An operand that is no number, where only a number can be negated. -/
  | operand (value : Value)
  /-- Operands to which the operator does not apply, in an expression shown as rendered. -/
  | uninterpretable (shown : String)
  | unknownStatement (sort : String)
  | unknownExpression (sort : String)
  | invalidLiteral (lexeme : String)
  | invalidUnary (lexeme : String)
  | globalScope
  | tooDeep
  deriving DecidableEq

namespace RuntimeError

def message : RuntimeError → String
  | undefinedVariable name => "Undefined variable `" ++ name ++ "`."
  | divisionByZero => "Divided by zero is not allowed."
  | operand value =>
    "Operand must be a Number, not " ++ value.typeName ++ " `" ++ value.display ++ "`."
  | uninterpretable shown => "Expression `" ++ shown ++ "` can not be interpreted."
  | unknownStatement sort => "Unknown statement type " ++ sort
  | unknownExpression sort => "Unknown expression type " ++ sort
  | invalidLiteral lexeme => "Invalid literal `" ++ lexeme ++ "`"
  | invalidUnary lexeme => "Invalid unary operator `" ++ lexeme ++ "`"
  | globalScope => "cannot drop the global scope"
  | tooDeep => "Expression nested too deeply to evaluate."

end RuntimeError

inductive Fault where
  | error (e : RuntimeError)
  /-- A number token whose text is no numeral. -/
  | numeral (lexeme : String)
  /-- A tree that has no rendered form. -/
  | unrenderable (sort : String)
  /-- A quotient by zero that was asked of the arithmetic of numbers. -/
  | quotientByZero
  | tooDeep
  deriving DecidableEq

/-- The message of a fault, if it has one. -/
def Fault.message? : Fault → Option String
  | error e => some e.message
  | numeral lexeme => some ("could not convert string to float: " ++ Text.quoted lexeme)
  | unrenderable sort => some ("unknown node type " ++ sort)
  | quotientByZero => some "float division by zero"
  | tooDeep => none

end Scriptlet
