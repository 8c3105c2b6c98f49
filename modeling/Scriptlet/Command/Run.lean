import Scriptlet.Command.Options
import Scriptlet.Command.Path
import Scriptlet.Json.Reader
import Scriptlet.Json.Writer
import Scriptlet.Node.Stored
import Scriptlet.Session

/-! A run of the program from its arguments, a disk and the standard input to what it writes and the
code it exits with. -/
namespace Scriptlet.Command

/-- What ends a run that has no message for it. -/
inductive Crash where
  | breakdown (b : Breakdown)
  | stored (f : StoredFault)
  | json (f : Json.ReadFault)
  | directory
  deriving DecidableEq

/-- The message of a crash, if it has one. -/
def Crash.message? : Crash → Option String
  | breakdown b => b.message?
  | stored f => f.message?
  | json _ | directory => none

structure Outcome where
  exit : Nat
  output : String
  errors : String
  crash : Option Crash
  /-- The texts of the files that were written. -/
  files : List (Path × String)

def parseErrorCode : Nat := 65

def runtimeErrorCode : Nat := 70

def tracePath : Path := .ofString "debug.txt"

def treeEnding : String := ".ast.json"

def promptMark : String := ">>> "

/-- How deep the text of a stored program may nest: enough for every program that can be stored.
Around its trees stand the program and its body, and inside of them the tokens. -/
def storedDepth : Nat := nestingLimit + 3

def notFound (p : Path) : String := "Error: file " ++ p.text ++ " not found\n"

def linesOf (texts : List String) : String := String.join (texts.map (· ++ "\n"))

/-- The text of a file, or the outcome of a run that needs it. -/
def textOf (disk : Disk) (p : Path) : Except Outcome String :=
  match disk.entry p with
  | .missing => .error ⟨1, "", notFound p, none, []⟩
  | .directory => .error ⟨1, "", "", some .directory, []⟩
  | .file bytes =>
    match Text.ofBytes? bytes with
    | some text => .ok text
    | none => .error ⟨1, "", "", some (.breakdown .notText), []⟩

/-- Writes the tree of a script beside it, if the script has no error. -/
def emit (disk : Disk) (p : Path) : Outcome :=
  match textOf disk p with
  | .error outcome => outcome
  | .ok source =>
    let strays := linesOf ((Source.strays source).map Diagnostic.strayText)
    let program := Program.ofStream (Source.stream source)
    if program.errors ≠ [] then
      let errors := linesOf (program.errors.map fun e => (Diagnostic.malformed e).text)
      ⟨parseErrorCode, strays, errors, none, []⟩
    else
      let target := p.extended treeEnding
      match disk.entry target with
      | .directory => ⟨1, strays, "", some .directory, []⟩
      | _ =>
        match Program.store program.statements with
        | .ok tree => ⟨0, strays ++ target.text ++ "\n", "", none, [(target, tree.write)]⟩
        | .error f => ⟨1, strays, "", some (.stored f), [(target, "")]⟩

/-- The exit code that a failure stands for. -/
def exitCode : Option Failure → Nat
  | none => 0
  | some (.malformed _) | some .unread => parseErrorCode
  | some (.runtime _) => runtimeErrorCode

/-- The outcome of a turn that was the last. -/
def ofTurn (turn : Turn) : Outcome :=
  let errors := linesOf (turn.report.diagnostics.map Diagnostic.text)
  match turn.outcome with
  | .ok failure => ⟨exitCode failure, turn.report.output, errors, none, []⟩
  | .error b => ⟨1, turn.report.output, errors, some (.breakdown b), []⟩

/-- Runs a script. -/
def runProgram (session : Session) (disk : Disk) (p : Path) : Outcome × List TraceEvent :=
  match textOf disk p with
  | .error outcome => (outcome, [])
  | .ok source =>
    let turn := session.run source
    (ofTurn turn, turn.report.trace)

/-- The statements of a stored program. -/
def loadTree (text : String) : Except Crash (List Node) :=
  match Json.read storedDepth text with
  | .error f => .error (.json f)
  | .ok value =>
    match Program.ofStored value with
    | .error f => .error (.stored f)
    | .ok statements => .ok statements

/-- Runs a stored tree. -/
def runTree (session : Session) (disk : Disk) (p : Path) : Outcome × List TraceEvent :=
  match textOf disk p with
  | .error outcome => (outcome, [])
  | .ok text =>
    match loadTree text with
    | .error crash => (⟨1, "", "", some crash, []⟩, [])
    | .ok statements =>
      let turn := session.runTree statements
      match turn.outcome with
      | .error (.fault (.error e)) =>
        (⟨runtimeErrorCode, turn.report.output, (Diagnostic.runtime e).text ++ "\n", none, []⟩,
          turn.report.trace)
      | _ => (ofTurn turn, turn.report.trace)

/-- Runs the lines of the standard input as they come. -/
def converse (session : Session) (input : String) : Outcome × List TraceEvent :=
  let lines := (Text.lines (Text.unifyLineEnds input.toList)).map String.ofList
  let turn := session.prompt promptMark lines
  let outcome := ofTurn turn
  match turn.outcome with
  | .ok _ => ({ outcome with output := outcome.output ++ promptMark ++ "\n" }, turn.report.trace)
  | .error _ => (outcome, turn.report.trace)

/-- Runs what the options ask for, with a trace file if they ask for one. The trace file is emptied
before anything is read. -/
def runSession (o : Options) (disk : Disk) (input : String) : Outcome :=
  let session := Session.start o.verbosity
  let go (disk : Disk) : Outcome × List TraceEvent :=
    match o.tree.filter (· ≠ ""), o.program.filter (· ≠ "") with
    | some tree, _ => runTree session disk (.ofString tree)
    | none, some program => runProgram session disk (.ofString program)
    | none, none => converse session input
  if o.verbosity = 0 then (go disk).1
  else
    match disk.entry tracePath with
    | .directory => ⟨1, "", "", some .directory, []⟩
    | _ =>
      let (outcome, trace) := go (disk.write tracePath "")
      { outcome with files := (tracePath, linesOf (trace.map TraceEvent.text)) :: outcome.files }

/-- Runs the program. An empty argument counts as absent. -/
def run (args : List String) (disk : Disk) (input : String) : Outcome :=
  match Options.ofArguments args with
  | .error .misused => ⟨2, "", "", none, []⟩
  | .error .helpWanted => ⟨0, "", "", none, []⟩
  | .ok o =>
    match o.emit.filter (· ≠ "") with
    | some script => emit disk (.ofString script)
    | none => runSession o disk input

/-- The debug level of a prompt, if this is what arguments ask for. -/
def promptLevel? (args : List String) : Option Nat :=
  match Options.ofArguments args with
  | .error _ => none
  | .ok o => if [o.emit, o.tree, o.program].all (·.getD "" = "") then some o.verbosity else none

/-- The files that a run with some arguments may read or write. -/
def paths (args : List String) : List Path :=
  match Options.ofArguments args with
  | .error _ => []
  | .ok o =>
    let named := [o.emit, o.tree, o.program].filterMap (·.map Path.ofString)
    tracePath :: named ++ named.map (·.extended treeEnding)

end Scriptlet.Command
