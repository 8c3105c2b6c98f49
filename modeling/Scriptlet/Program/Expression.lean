import Scriptlet.Node
import Scriptlet.Program.ParseError

/-! Reading expressions.

    expression → IDENTIFIER "=" expression | equality
    equality   → comparison (("!=" | "==") comparison)*
    comparison → term ((">" | ">=" | "<" | "<=") term)*
    term       → factor (("-" | "+") factor)*
    factor     → unary (("/" | "*") unary)*
    unary      → ("!" | "-") unary | primary
    primary    → NUMBER | STRING | "true" | "false" | "nil" | "(" expression ")" | IDENTIFIER

Each binary level folds its operands into a tree that leans to the left. The target of an assignment
is read as an operand first and looked at when the equals sign is there. -/
namespace Scriptlet.Program

/-- The operators of the binary levels, loosest first. -/
def binaryLevels : List (List Symbol) :=
  [[.bangEqual, .equalEqual], [.greater, .greaterEqual, .less, .lessEqual], [.minus, .plus],
   [.slash, .star]]

def unaryOperators : List Symbol := [.bang, .minus]

def isOneOf (symbols : List Symbol) (t : Token) : Bool := symbols.any (t.kind = .symbol ·)

/-- Steps over a symbol that has to come next. -/
def require (s : Symbol) (cause : ParseError.Cause) (ts : List Token) :
    Except Obstacle (List Token) :=
  match ts with
  | t :: rest => if t.kind = .symbol s then .ok rest else .error (.here cause (t :: rest))
  | [] => .error (.here cause [])

/-- Extends a left operand as long as one of the operators follows. Each turn reads a token, so the
number of tokens is fuel enough. -/
def chain (operators : List Symbol)
    (operand : List Token → Except Obstacle (Node × List Token)) :
    Nat → Node → List Token → Except Obstacle (Node × List Token)
  | 0, left, ts => .ok (left, ts)
  | _ + 1, left, [] => .ok (left, [])
  | fuel + 1, left, t :: ts =>
    if isOneOf operators t then do
      let (right, rest) ← operand ts
      chain operators operand fuel (.binary left t right) rest
    else .ok (left, t :: ts)

mutual

/-- Reads an expression in at most `depth` nested steps. -/
def expression (depth : Nat) (ts : List Token) : Except Obstacle (Node × List Token) :=
  match depth with
  | 0 => .error (.here .tooDeep ts)
  | d + 1 => do
    let (target, rest) ← operand d binaryLevels ts
    match rest with
    | [] => return (target, [])
    | t :: after =>
      if t.kind = .symbol .equal then
        let (value, rest) ← expression d after
        match target with
        | .reference name => return (.assign name value, rest)
        | _ => throw ⟨.assignmentTarget, t :: after, rest⟩
      else return (target, t :: after)

/-- Reads an operand of the level above the given ones; below the last level stand the unary
operators. -/
def operand (depth : Nat) (levels : List (List Symbol)) (ts : List Token) :
    Except Obstacle (Node × List Token) :=
  match depth with
  | 0 => .error (.here .tooDeep ts)
  | d + 1 =>
    match levels with
    | operators :: tighter => do
      let (left, rest) ← operand d tighter ts
      chain operators (operand d tighter) rest.length left rest
    | [] =>
      match ts with
      | [] => primary d []
      | t :: rest =>
        if isOneOf unaryOperators t then do
          let (inner, rest) ← operand d [] rest
          return (.unary t inner, rest)
        else primary d (t :: rest)

def primary (depth : Nat) (ts : List Token) : Except Obstacle (Node × List Token) :=
  match depth with
  | 0 => .error (.here .tooDeep ts)
  | d + 1 =>
    match ts with
    | [] => .error (.here .expression [])
    | t :: rest =>
      if t.kind.isLiteral then return (.literal t, rest)
      else if t.kind = .identifier then return (.reference t, rest)
      else if t.kind = .symbol .leftParen then do
        let (inner, rest) ← expression d rest
        let rest ← require .rightParen .closingParen rest
        return (.grouping inner, rest)
      else .error (.here .expression (t :: rest))

end

end Scriptlet.Program
