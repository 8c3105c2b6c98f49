import Scriptlet.Program

/-! Reading by place. A reader stands at a place in a list of tokens, looks at the token there or at
the one before, and steps on; it knows nothing of where the input ends but what these looks tell it.
It keeps a journal of its looks and steps, and of its attempts at declarations. Programs are read from
streams, in which the tokens left are what a place is here; what a reader finds is what a stream is
read as. -/
namespace Scriptlet.Cursor

/-- Why reading breaks off. Only an error is ever caught. -/
inductive Stop where
  | error (e : ParseError)
  /-- A look at a place behind the last token. -/
  | beyond
  /-- A look at the token before the first one. -/
  | before
  /-- A loop took all the turns it was given. -/
  | endless

inductive Event where
  | peeked (place : Nat)
  /-- A look at the token before a place. -/
  | recalled (place : Nat)
  | moved (place : Nat)
  /-- An attempt at a declaration, with the places at which it began and ended. -/
  | attempted (start finish : Nat)

structure State where
  place : Nat
  errors : List ParseError
  journal : List Event

def State.start : State := ⟨0, [], []⟩

abbrev Reader := ExceptT Stop (StateM State)

def note (event : Event) : Reader Unit :=
  modify fun m => { m with journal := m.journal ++ [event] }

section Tokens

variable (tokens : List Token)

def tokenAt (place : Nat) : Reader Token :=
  match tokens[place]? with
  | some t => return t
  | none => throw .beyond

def peek : Reader Token := do
  let place := (← get).place
  note (.peeked place)
  tokenAt tokens place

def previous : Reader Token := do
  let place := (← get).place
  note (.recalled place)
  match place with
  | 0 => throw .before
  | last + 1 => tokenAt tokens last

def atEnd : Reader Bool := return (← peek tokens).kind = .endOfInput

def step : Reader Unit := do
  modify fun m => { m with place := m.place + 1 }
  note (.moved (← get).place)

/-- Steps over the next token, unless that ends the input. -/
def advance : Reader Token := do
  if ← atEnd tokens then previous tokens
  else
    step
    previous tokens

def check (kind : TokenKind) : Reader Bool := do
  if ← atEnd tokens then return false
  else return (← peek tokens).kind = kind

/-- Steps over the next token if it is of one of some kinds. -/
def accept : List TokenKind → Reader Bool
  | [] => return false
  | kind :: kinds => do
    if ← check tokens kind then
      discard (advance tokens)
      return true
    else accept kinds

/-- The token that was accepted. -/
def take? (kinds : List TokenKind) : Reader (Option Token) := do
  if ← accept tokens kinds then return some (← previous tokens) else return none

def fail (cause : ParseError.Cause) : Reader α := do
  throw (.error ⟨cause, ← peek tokens⟩)

def require (kind : TokenKind) (cause : ParseError.Cause) : Reader Token := do
  if ← check tokens kind then advance tokens else fail tokens cause

/-- Goes on to a boundary between statements, in at most `turns` turns. -/
def seek (turns : Nat) : Reader Unit :=
  match turns with
  | 0 => throw .endless
  | n + 1 => do
    if ← atEnd tokens then return ()
    else if (← previous tokens).kind = .symbol .semicolon then return ()
    else if (← peek tokens).kind.opensStatement then return ()
    else
      discard (advance tokens)
      seek n

def synchronize (turns : Nat) : Reader Unit := do
  discard (advance tokens)
  seek tokens turns

def chain (operators : List Symbol) (operand : Reader Node) : Nat → Node → Reader Node
  | 0, _ => throw .endless
  | n + 1, left => do
    match ← take? tokens (operators.map .symbol) with
    | none => return left
    | some operator => chain operators operand n (.binary left operator (← operand))

def literals : List TokenKind :=
  [.number, .string, .keyword .true, .keyword .false, .keyword .nil]

mutual

def expression (turns depth : Nat) : Reader Node :=
  match depth with
  | 0 => fail tokens .tooDeep
  | d + 1 => do
    let target ← operand turns d Program.binaryLevels
    match ← take? tokens [.symbol .equal] with
    | none => return target
    | some equals =>
      let value ← expression turns d
      match target with
      | .reference name => return .assign name value
      | _ => throw (.error ⟨.assignmentTarget, equals⟩)

def operand (turns depth : Nat) (levels : List (List Symbol)) : Reader Node :=
  match depth with
  | 0 => fail tokens .tooDeep
  | d + 1 =>
    match levels with
    | operators :: tighter => do
      let left ← operand turns d tighter
      chain tokens operators (operand turns d tighter) turns left
    | [] => do
      match ← take? tokens (Program.unaryOperators.map .symbol) with
      | some operator => return .unary operator (← operand turns d [])
      | none => primary turns d

def primary (turns depth : Nat) : Reader Node :=
  match depth with
  | 0 => fail tokens .tooDeep
  | d + 1 => do
    match ← take? tokens literals with
    | some t => return .literal t
    | none =>
      match ← take? tokens [.identifier] with
      | some name => return .reference name
      | none =>
        if ← accept tokens [.symbol .leftParen] then
          let inner ← expression turns d
          discard (require tokens (.symbol .rightParen) .closingParen)
          return .grouping inner
        else fail tokens .expression

end

def initialValue (turns depth : Nat) : Reader Node := do
  if ← accept tokens [.symbol .equal] then expression tokens turns depth else return .missing

def variableDeclaration (turns depth : Nat) : Reader Node := do
  let name ← require tokens .identifier .variableName
  let initial ← initialValue tokens turns depth
  discard (require tokens (.symbol .semicolon) .endOfDeclaration)
  return .declare name initial

def terminated (make : Node → Node) (cause : ParseError.Cause) (turns depth : Nat) :
    Reader Node := do
  let value ← expression tokens turns depth
  discard (require tokens (.symbol .semicolon) cause)
  return make value

/-- Catches an error, keeps it, and goes on to where reading may resume. -/
def recover (turns : Nat) (stop : Stop) : Reader (Option Node) :=
  match stop with
  | .error e => do
    modify fun m => { m with errors := m.errors ++ [e] }
    synchronize tokens turns
    return none
  | stop => throw stop

/-- An attempt at a declaration, which is entered in the journal when it is over. -/
def attempt (turns : Nat) (read : Reader Node) : Reader (Option Node) := do
  let start := (← get).place
  let result ← tryCatch (read >>= fun n => return some n) (recover tokens turns)
  note (.attempted start (← get).place)
  return result

def many (declaration : Reader (Option Node)) (done : Reader Bool) : Nat → Reader (List Node)
  | 0 => throw .endless
  | n + 1 => do
    if ← done then return []
    else
      let first ← declaration
      let others ← many declaration done n
      return first.toList ++ others

def blockDone : Reader Bool := do
  if ← check tokens (.symbol .rightBrace) then return true else atEnd tokens

def declaration (turns levels : Nat) : Reader (Option Node) :=
  match levels with
  | 0 => attempt tokens turns (fail tokens .tooDeep)
  | l + 1 => attempt tokens turns do
    let depth := Program.stepsPerBlock * (l + 1)
    if ← accept tokens [.keyword .var] then variableDeclaration tokens turns depth
    else if ← accept tokens [.keyword .print] then
      terminated tokens .print .endOfPrint turns depth
    else if ← accept tokens [.symbol .leftBrace] then
      let body ← many (declaration turns l) (blockDone tokens) turns
      discard (require tokens (.symbol .rightBrace) .endOfBlock)
      return .block body
    else terminated tokens .expression .endOfExpression turns depth

/-- Reads a whole program. Every loop may take `turns` turns. -/
def program (turns : Nat) : Reader (List Node) :=
  many (declaration tokens turns (nestingLimit / Program.stepsPerBlock)) (atEnd tokens) turns

/-- Whether the last token is the next one. -/
def State.atLast (m : State) : Prop := m.place = tokens.length - 1

end Tokens

end Scriptlet.Cursor
