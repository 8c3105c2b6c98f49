import Scriptlet.Command.Run

/-! The program itself: it fetches the files that a run may need, and writes what the run says. The
prompt runs each line as it is read. -/
namespace Scriptlet.Main

/-- The code of the system's error for reading a directory. -/
def isDirectoryCode : UInt32 := 21

def load (p : Path) : IO Entry := do
  try
    return .file (← IO.FS.readBinFile p.text)
  catch e =>
    match e with
    | .inappropriateType _ code _ =>
      return if code = isDirectoryCode then .directory else .missing
    | _ => return .missing

def loadDisk (ps : List Path) : IO Disk := do
  let entries ← ps.mapM fun p => return (p, ← load p)
  return { locate := id, content := fun p => (entries.lookup p).getD .missing }

def crashText (c : Command.Crash) : String :=
  "Error: " ++ c.message?.getD "the run broke off" ++ "\n"

def finish (outcome : Command.Outcome) : IO UInt32 := do
  for (p, text) in outcome.files do
    IO.FS.writeFile p.text text
  (← IO.getStdout).putStr outcome.output
  (← IO.getStderr).putStr (outcome.errors ++ (outcome.crash.map crashText).getD "")
  return outcome.exit.toUInt32

/-- Runs lines until the input ends, and keeps the trace file up to date. -/
partial def converse (session : Session) (traced : List TraceEvent) : IO Unit := do
  let output ← IO.getStdout
  if session.level ≠ 0 then
    IO.FS.writeFile Command.tracePath.text (Command.linesOf (traced.map TraceEvent.text))
  output.putStr Command.promptMark
  output.flush
  let line ← (← IO.getStdin).getLine
  if line.isEmpty then output.putStr "\n"
  else
    let lines := (Text.lines (Text.unifyLineEnds line.toList)).map String.ofList
    let turn := session.prompt "" lines
    output.putStr turn.report.output
    (← IO.getStderr).putStr (Command.linesOf (turn.report.diagnostics.map Diagnostic.text))
    converse turn.session (traced ++ turn.report.trace)

end Scriptlet.Main

open Scriptlet in
def main (args : List String) : IO UInt32 := do
  match Command.promptLevel? args with
  | some level =>
    Main.converse (.start level) []
    return 0
  | none =>
    let disk ← Main.loadDisk (Command.paths args)
    Main.finish (Command.run args disk "")
