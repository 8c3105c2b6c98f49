import Scriptlet.Token
import Scriptlet.Text.Quoted

/-! What can be wrong with the form of a script: a cause, and the token at which it showed. -/
namespace Scriptlet

namespace ParseError

inductive Cause where
  | variableName
  | endOfDeclaration
  | endOfPrint
  | endOfExpression
  | endOfBlock
  | closingParen
  | expression
  /-- The left side of an assignment is not a name. -/
  | assignmentTarget
  | tooDeep
  deriving DecidableEq, Repr

def Cause.text : Cause → String
  | variableName => "expected variable name"
  | endOfDeclaration => "expected ';' after variable declaration"
  | endOfPrint => "expected ';' after value"
  | endOfExpression => "expected ';' after expression"
  | endOfBlock => "expected '\x7d' after block"
  | closingParen => "expected ')' after expression"
  | expression => "expected expression"
  | assignmentTarget => "invalid assignment target"
  | tooDeep => "expression nested too deeply"

end ParseError

structure ParseError where
  cause : ParseError.Cause
  found : Token
  deriving DecidableEq, Repr

namespace ParseError

def foundText (t : Token) : String :=
  if t.kind = .endOfInput then "end of input" else Text.quoted t.lexeme

def message (e : ParseError) : String :=
  "[line " ++ toString e.found.line ++ "] " ++ e.cause.text ++ ", got " ++ foundText e.found

end ParseError

/-- A point at which reading a statement cannot go on. `named` starts with the token that is to
blame and `rest` with the next token to read; an empty list stands for the end of input. -/
structure Obstacle where
  cause : ParseError.Cause
  named : List Token
  rest : List Token
  deriving DecidableEq, Repr

namespace Obstacle

/-- An obstacle at the next token. -/
def here (cause : ParseError.Cause) (rest : List Token) : Obstacle := ⟨cause, rest, rest⟩

/-- The error to report, given the token that ends the input. -/
def error (o : Obstacle) (stop : Token) : ParseError := ⟨o.cause, o.named.headD stop⟩

end Obstacle

end Scriptlet
