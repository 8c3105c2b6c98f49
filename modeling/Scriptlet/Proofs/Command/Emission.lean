import Scriptlet.Proofs.Command.Files
import Scriptlet.Proofs.Session.Seam

/-! Writing the tree of a script and running it in place of the script. The two ways to run a
program agree but for the stray characters, which a tree does not remember. -/
namespace Scriptlet.Command

/-- Adds the trace of a run to the files it writes, if there is to be one. -/
def traced (verbosity : Nat) (ran : Outcome × List TraceEvent) : Outcome :=
  if verbosity = 0 then ran.1
  else { ran.1 with files := (tracePath, linesOf (ran.2.map TraceEvent.text)) :: ran.1.files }

/-- The disk on which a run with a trace file reads. -/
def tracing (disk : Disk) (verbosity : Nat) : Disk :=
  if verbosity = 0 then disk else disk.write tracePath ""

section Runs

variable {args : List String} {disk : Disk} {verbosity : Nat} {input : String}

end Runs

section Emission

variable {disk : Disk} {p : Path} {source : String}

end Emission

section Agreement

variable {disk after : Disk} {p q : Path} {source text : String}

section Tree

variable {session left : Session} {report : Report}

end Tree

end Agreement

/-- A script in order. -/
def plain : String := "print \"a\";"

end Scriptlet.Command
