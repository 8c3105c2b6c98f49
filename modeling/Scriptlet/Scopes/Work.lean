import Scriptlet.Program
import Scriptlet.Run.Execute
import Scriptlet.Scopes.Script

/-! Programs and expressions as steps of a script of scope operations. -/
namespace Scriptlet.Scopes

inductive Work where
  | execute (source : String)
  | evaluate (source : String)

namespace Work

inductive Result where
  /-- What a program printed, and what ended it early. -/
  | executed (output : String) (fault : Option Fault)
  | evaluated (v : Value)

inductive Failure where
  | malformed (e : ParseError)
  | fault (f : Fault)
  deriving DecidableEq

/-- A fault in a program ends the program and not the script; one in an expression ends the step. -/
def perform (work : Work) (s : Scopes) : Except Failure Result × Scopes :=
  match work with
  | execute source =>
    let program := Program.ofStream (Source.stream source)
    let (outcome, m) := (interpret 0 program.statements).on s
    let fault := match outcome with
      | .ok () => none
      | .error f => some f
    (.ok (.executed m.output fault), m.scopes)
  | evaluate source =>
    match LeadingExpression.ofStream (Source.stream source) with
    | .error e => (.error (.malformed e), s)
    | .ok e =>
      let (outcome, m) := (e.tree.evaluate 0 nestingLimit).on s
      match outcome with
      | .ok v => (.ok (.evaluated v), m.scopes)
      | .error f => (.error (.fault f), m.scopes)

def worker : Worker Work Result Failure := ⟨perform, fun e => .fault (.error e)⟩

end Work

end Scriptlet.Scopes
