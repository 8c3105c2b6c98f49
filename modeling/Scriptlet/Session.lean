import Scriptlet.Program
import Scriptlet.Run.Execute
import Scriptlet.Text.Lines

/-! Sessions: scripts run one after another on the same bindings. A script with malformed statements
is run without them, and the first failure of a run is its answer. -/
namespace Scriptlet

/-- A message on the error stream. -/
inductive Diagnostic where
  | stray (t : Token)
  | malformed (e : ParseError)
  /-- The tokens went on behind an end of input. -/
  | unread
  | runtime (e : RuntimeError)
  deriving DecidableEq

namespace Diagnostic

def strayText (t : Token) : String :=
  "[line " ++ toString t.line ++ "] invalid token: " ++ t.lexeme

def text : Diagnostic → String
  | stray t => strayText t
  | malformed e => "Error: " ++ e.message
  | unread => "Error: not all tokens were parsed"
  | runtime e => "RuntimeError: " ++ e.message

end Diagnostic

/-- Why a run did not do all that its script says. -/
inductive Failure where
  | malformed (e : ParseError)
  | unread
  | runtime (e : RuntimeError)
  deriving DecidableEq

/-- What a session cannot go through with. -/
inductive Breakdown where
  | fault (f : Fault)
  /-- Tokens without an end of input. -/
  | noEnd
  /-- A file that is not text. -/
  | notText
  deriving DecidableEq

def Breakdown.message? : Breakdown → Option String
  | fault f => f.message?
  | noEnd => some "token stream must end with an EOF token"
  | notText => none

structure Session where
  scopes : Scopes
  /-- Whether any run so far had a failure. -/
  hadError : Bool
  /-- The debug level, for the whole session. -/
  level : Nat

/-- What a run wrote. -/
structure Report where
  output : String
  diagnostics : List Diagnostic
  trace : List TraceEvent

namespace Report

def empty : Report := ⟨"", [], []⟩

def append (r s : Report) : Report :=
  ⟨r.output ++ s.output, r.diagnostics ++ s.diagnostics, r.trace ++ s.trace⟩

end Report

/-- The outcome of a step of a session. -/
structure Turn where
  outcome : Except Breakdown (Option Failure)
  report : Report
  session : Session

namespace Session

def start (level : Nat) : Session := ⟨.initial, false, level⟩

/-- Runs statements on the bindings of a session. -/
def interpret (s : Session) (statements : List Node) : Except Fault Unit × Report × Session :=
  let (outcome, m) := (Scriptlet.interpret s.level statements).on s.scopes
  (outcome, ⟨m.output, [], m.trace⟩, { s with scopes := m.scopes })

/-- Runs a program that was read from tokens. If any token is left, nothing is executed. -/
def runProgram (s : Session) (p : Program) : Turn :=
  let malformed := p.errors.map Diagnostic.malformed
  let first := p.errors.head?.map Failure.malformed
  if p.complete then
    let (outcome, report, s) := s.interpret p.statements
    match outcome with
    | .ok () => ⟨.ok first, { report with diagnostics := malformed },
        { s with hadError := s.hadError || first.isSome }⟩
    | .error (.error e) =>
      ⟨.ok (first.or (some (.runtime e))), { report with diagnostics := malformed ++ [.runtime e] },
        { s with hadError := true }⟩
    | .error fault => ⟨.error (.fault fault), { report with diagnostics := malformed }, s⟩
  else
    ⟨.ok (first.or (some .unread)), { Report.empty with diagnostics := malformed ++ [.unread] },
      { s with hadError := true }⟩

/-- Runs a script given as tokens. -/
def runTokens (s : Session) (tokens : List Token) : Turn :=
  match TokenStream.ofTokens? tokens with
  | some stream => s.runProgram (.ofStream stream)
  | none => ⟨.error .noEnd, .empty, s⟩

/-- Runs a script. Stray characters are reported before all else. -/
def run (s : Session) (source : String) : Turn :=
  let turn := s.runProgram (.ofStream (Source.stream source))
  let strays := (Source.strays source).map Diagnostic.stray
  { turn with report := { turn.report with diagnostics := strays ++ turn.report.diagnostics } }

/-- Runs each line on its own, after a mark on the output; failures do not stop it. -/
def prompt (s : Session) (mark : String) : List String → Turn
  | [] => ⟨.ok none, .empty, s⟩
  | line :: lines =>
    let turn := s.run line
    let report := { turn.report with output := mark ++ turn.report.output }
    match turn.outcome with
    | .error b => ⟨.error b, report, turn.session⟩
    | .ok _ =>
      let others := turn.session.prompt mark lines
      { others with report := report.append others.report }

/-- Runs the text of a file. -/
def runFile (s : Session) (bytes : ByteArray) : Turn :=
  match Text.ofBytes? bytes with
  | some source => s.run source
  | none => ⟨.error .notText, .empty, s⟩

/-- Runs a tree that was not read from a script. Its errors are not reported. -/
def runTree (s : Session) (statements : List Node) : Turn :=
  let (outcome, report, s) := s.interpret statements
  match outcome with
  | .ok () => ⟨.ok none, report, s⟩
  | .error fault => ⟨.error (.fault fault), report, s⟩

/-- The ways in which a session is used. -/
inductive Step where
  | run (source : String)
  | prompt (lines : List String)
  | file (bytes : ByteArray)
  | tokens (tokens : List Token)
  | tree (statements : List Node)

def step (s : Session) : Step → Turn
  | .run source => s.run source
  | .prompt lines => s.prompt "" lines
  | .file bytes => s.runFile bytes
  | .tokens tokens => s.runTokens tokens
  | .tree statements => s.runTree statements

end Session

end Scriptlet
