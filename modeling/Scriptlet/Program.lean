import Scriptlet.Program.Statement
import Scriptlet.Token.Stream

/-! Programs: the statements that a stream of tokens holds, with an error for each declaration that
could not be read. -/
namespace Scriptlet

structure Program where
  statements : List Node
  errors : List ParseError
  /-- How many tokens were read. -/
  position : Nat
  /-- Whether nothing but the end of input is left. -/
  complete : Bool

namespace Program

/-- Reads the tokens before the first end of input. -/
def ofStream (s : TokenStream) : Program :=
  let read := many (declaration (nestingLimit / stepsPerBlock)) List.isEmpty s.body.length s.body
  { statements := read.statements
    errors := read.obstacles.map (·.error s.stop)
    position := s.body.length - read.rest.length
    complete := read.rest.isEmpty && s.isWhole }

end Program

/-- The longest expression at the head of a stream. -/
structure LeadingExpression where
  tree : Node
  position : Nat
  complete : Bool

/-- Reads one expression, without recovery. -/
def LeadingExpression.ofStream (s : TokenStream) : Except ParseError LeadingExpression :=
  match Program.expression nestingLimit s.body with
  | .ok (tree, rest) => .ok ⟨tree, s.body.length - rest.length, rest.isEmpty && s.isWhole⟩
  | .error o => .error (o.error s.stop)

end Scriptlet
