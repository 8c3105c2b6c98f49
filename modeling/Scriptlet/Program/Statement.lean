import Scriptlet.Program.Expression

/-! Reading statements.

    declaration → "var" IDENTIFIER ("=" expression)? ";" | statement
    statement   → "print" expression ";" | "{" declaration* "}" | expression ";"

A declaration that cannot be read is left out, its obstacle is recorded, and reading goes on at the
next boundary between statements. The token at which reading stood is passed over whatever it is,
so each attempt gets on. -/
namespace Scriptlet.Program

/-- What a stretch of tokens was read as, with what stood in the way, in order. -/
structure Recovered where
  statements : List Node
  obstacles : List Obstacle
  rest : List Token

/-- One declaration: the obstacles recorded inside its blocks, and the tree or the obstacle that
ended it. -/
structure Attempt where
  inner : List Obstacle
  outcome : Except Obstacle (Node × List Token)

/-- Where reading may resume, seen from a token just passed: after a semicolon, or in front of a
word that opens a statement. -/
def boundary (passed : Token) : List Token → List Token
  | [] => []
  | t :: ts =>
    if passed.kind = .symbol .semicolon ∨ t.kind.opensStatement then t :: ts else boundary t ts

/-- The next token is always passed over, then all up to a boundary. -/
def resync : List Token → List Token
  | [] => []
  | t :: ts => boundary t ts

/-- Settles an attempt: a failed one yields no statement, and reading resumes behind it. -/
def Attempt.settle (a : Attempt) : Recovered :=
  match a.outcome with
  | .ok (n, rest) => ⟨[n], a.inner, rest⟩
  | .error o => ⟨[], a.inner ++ [o], resync o.rest⟩

/-- Reads declarations until `done` holds of the tokens left. Each one reads a token, so the number
of tokens is fuel enough. -/
def many (declaration : List Token → Attempt) (done : List Token → Bool) :
    Nat → List Token → Recovered
  | 0, ts => ⟨[], [], ts⟩
  | fuel + 1, ts =>
    if done ts then ⟨[], [], ts⟩
    else
      let first := (declaration ts).settle
      let others := many declaration done fuel first.rest
      ⟨first.statements ++ others.statements, first.obstacles ++ others.obstacles, others.rest⟩

/-- A block ends at a closing brace, or where the input does. -/
def blockDone : List Token → Bool
  | [] => true
  | t :: _ => t.kind = .symbol .rightBrace

/-- The initial value of a variable, which is missing without an equals sign. -/
def initialValue (depth : Nat) (ts : List Token) : Except Obstacle (Node × List Token) :=
  match ts with
  | [] => .ok (.missing, [])
  | t :: rest =>
    if t.kind = .symbol .equal then expression depth rest else .ok (.missing, t :: rest)

/-- The rest of a variable declaration, after its keyword. -/
def variableDeclaration (depth : Nat) (ts : List Token) : Except Obstacle (Node × List Token) :=
  match ts with
  | [] => .error (.here .variableName [])
  | name :: rest =>
    if name.kind = .identifier then do
      let (initial, rest) ← initialValue depth rest
      let rest ← require .semicolon .endOfDeclaration rest
      return (.declare name initial, rest)
    else .error (.here .variableName (name :: rest))

/-- An expression, the semicolon after it, and the statement that they make. -/
def terminated (make : Node → Node) (cause : ParseError.Cause) (depth : Nat) (ts : List Token) :
    Except Obstacle (Node × List Token) := do
  let (value, rest) ← expression depth ts
  let rest ← require .semicolon cause rest
  return (make value, rest)

/-- How many nested steps a level of blocks takes. -/
def stepsPerBlock : Nat := 3

/-- Reads a declaration in which blocks nest at most `levels` deep. What the blocks leave of the
limit on nesting is for the expressions. -/
def declaration (levels : Nat) (ts : List Token) : Attempt :=
  match levels with
  | 0 => ⟨[], .error (.here .tooDeep ts)⟩
  | l + 1 =>
    let depth := stepsPerBlock * (l + 1)
    match ts with
    | [] => ⟨[], terminated .expression .endOfExpression depth []⟩
    | t :: rest =>
      match t.kind with
      | .keyword .var => ⟨[], variableDeclaration depth rest⟩
      | .keyword .print => ⟨[], terminated .print .endOfPrint depth rest⟩
      | .symbol .leftBrace =>
        let body := many (declaration l) blockDone rest.length rest
        ⟨body.obstacles, do
          let rest ← require .rightBrace .endOfBlock body.rest
          return (.block body.statements, rest)⟩
      | _ => ⟨[], terminated .expression .endOfExpression depth (t :: rest)⟩

end Scriptlet.Program
