import Scriptlet.Proofs.Program
import Scriptlet.Proofs.Run.Frame
import Scriptlet.Proofs.Run.Lines
import Scriptlet.Proofs.Session.Safety

/-! Running two texts one after the other is running them joined by a line feed, if the first is in
order. What the second answers and reports is then told of lower lines. -/
namespace Scriptlet

namespace Diagnostic

def lowered (lines : Nat) : Diagnostic → Diagnostic
  | stray t => stray (t.lowered lines)
  | malformed e => malformed (e.lowered lines)
  | unread => unread
  | runtime e => runtime e

end Diagnostic

namespace Failure

def lowered (lines : Nat) : Failure → Failure
  | malformed e => malformed (e.lowered lines)
  | unread => unread
  | runtime e => runtime e

end Failure

def Report.lowered (lines : Nat) (r : Report) : Report :=
  { r with diagnostics := r.diagnostics.map (.lowered lines) }

theorem interpret_lowered (level lines : Nat) (ns : List Node) :
    interpret level (ns.map (.lowered lines)) = interpret level ns :=
  interpret_relabel (f := Token.lowered lines) (fun _ => rfl) (fun _ => rfl) level ns

namespace Session

/-- A program of which nothing is left to read runs to its end or to an error. -/
theorem ran_of_source (s : Session) (source : String) :
    ∃ m, s.ran (Program.ofStream (Source.stream source)).statements = (.ok (), m) ∨
      ∃ e, s.ran (Program.ofStream (Source.stream source)).statements = (.error (.error e), m) := by
  obtain ⟨_, allowed⟩ := interpret_safe (statements_safe source s.level) (.start s.scopes)
  rcases ends : s.ran (Program.ofStream (Source.stream source)).statements with ⟨f | ⟨⟩, m⟩
  · obtain ⟨e, rfl, _⟩ := allowed f (congrArg (·.1) ends)
    exact ⟨m, .inr ⟨e, rfl⟩⟩
  · exact ⟨m, .inl rfl⟩

/-- A program that has the errors of another one lower down, and that runs as the other does behind
something written already. -/
theorem runProgram_lowered {p q : Program} {s t : Session} {lines : Nat} {output : String}
    {trace : List TraceEvent} (pComplete : p.complete = true) (qComplete : q.complete = true)
    (errors : p.errors = q.errors.map (.lowered lines)) (hadError : s.hadError = t.hadError)
    (level : s.level = t.level) (runs : s.ran p.statements =
      ((t.ran q.statements).1, (t.ran q.statements).2.behind output trace))
    (ends : ∃ m, t.ran q.statements = (.ok (), m) ∨ ∃ e, t.ran q.statements = (.error (.error e), m)) :
    s.runProgram p =
      ⟨(t.runProgram q).outcome.map (Option.map (.lowered lines)),
        Report.append ⟨output, [], trace⟩ ((t.runProgram q).report.lowered lines),
        (t.runProgram q).session⟩ := by
  have blamed : blame p = (blame q).map (.lowered lines) := by
    rw [blame, errors, List.head?_map, blame]
    simp only [Option.map_map]
    rfl
  have told : p.errors.map Diagnostic.malformed =
      (q.errors.map Diagnostic.malformed).map (.lowered lines) := by
    rw [errors, List.map_map, List.map_map]
    rfl
  obtain ⟨m, ends | ⟨e, ends⟩⟩ := ends
  · rw [ends] at runs
    rw [runProgram_of_ok pComplete runs, runProgram_of_ok qComplete ends, blamed, told, hadError,
      level, Option.isSome_map]
    rfl
  · have failure : ((blame q).map (Failure.lowered lines)).or (some (.runtime e)) =
        ((blame q).or (some (.runtime e))).map (Failure.lowered lines) := by
      cases blame q <;> rfl
    rw [ends] at runs
    rw [runProgram_of_error pComplete runs, runProgram_of_error qComplete ends, blamed, told,
      level, failure]
    simp only [Report.append, Report.lowered, List.map_append]
    rfl

/-- A text that is in order leaves nothing to report but its stray characters. -/
theorem run_of_quiet {s : Session} {a : String}
    (clean : (Program.ofStream (Source.stream a)).errors = [])
    (quiet : ∀ e, (s.run a).outcome ≠ .ok (some (.runtime e))) :
    ∃ m, s.ran (Program.ofStream (Source.stream a)).statements = (.ok (), m) ∧
      s.run a = ⟨.ok none, ⟨m.output, (Source.strays a).map .stray, m.trace⟩,
        ⟨m.scopes, s.hadError, s.level⟩⟩ := by
  have complete : (Program.ofStream (Source.stream a)).complete = true := Grammar.complete_ofStream
  have blameless : blame (Program.ofStream (Source.stream a)) = none := by
    rw [blame, clean]
    rfl
  obtain ⟨m, ends | ⟨e, ends⟩⟩ := s.ran_of_source a
  · refine ⟨m, ends, ?_⟩
    simp only [run, runProgram_of_ok complete ends, blameless, clean, List.map_nil,
      List.append_nil, Option.isSome_none, Bool.or_false]
  · refine absurd ?_ (quiet e)
    simp only [run, runProgram_of_error complete ends, blameless, Option.none_or]

/-- Running a text and then another from where it leaves the session is running the two joined by a
line feed, if the first leaves no string open, is read without an error and meets none when it
runs. Bindings, output, trace and answer are the same, but that what the second text answers and
reports is told of lines below those of the first. -/
theorem run_seam (s : Session) (a b : String) (even : a.toList.count '"' % 2 = 0)
    (clean : (Program.ofStream (Source.stream a)).errors = [])
    (quiet : ∀ e, (s.run a).outcome ≠ .ok (some (.runtime e))) :
    s.run (a ++ "\n" ++ b) =
      ⟨((s.run a).session.run b).outcome.map (Option.map (.lowered (Source.lineCount a))),
        (s.run a).report.append (((s.run a).session.run b).report.lowered (Source.lineCount a)),
        ((s.run a).session.run b).session⟩ := by
  obtain ⟨statements, errors⟩ := Program.ofStream_seam even clean b
  obtain ⟨m, ends, first⟩ := run_of_quiet clean quiet
  rw [first]
  generalize left : (⟨m.scopes, s.hadError, s.level⟩ : Session) = t
  have runs : s.ran (Program.ofStream (Source.stream (a ++ "\n" ++ b))).statements =
      ((t.ran (Program.ofStream (Source.stream b)).statements).1,
        (t.ran (Program.ofStream (Source.stream b)).statements).2.behind m.output m.trace) := by
    have joined := interpret_append ends ((Program.ofStream (Source.stream b)).statements.map
      (.lowered (Source.lineCount a)))
    rw [interpret_lowered] at joined
    rw [statements, ← left]
    exact joined
  have second := runProgram_lowered (s := s) (t := t) Grammar.complete_ofStream
    Grammar.complete_ofStream errors (by rw [← left]) (by rw [← left]) runs (ran_of_source t b)
  have strays : (Source.strays (a ++ "\n" ++ b)).map Diagnostic.stray =
      (Source.strays a).map .stray ++
        ((Source.strays b).map Diagnostic.stray).map (.lowered (Source.lineCount a)) := by
    rw [Source.strays_seam even, List.map_append, List.map_map, List.map_map]
    rfl
  simp only [run, second, strays, Report.append, Report.lowered, List.nil_append, List.map_append,
    List.append_assoc]

/-- A text with a stray character and a string over two lines. -/
def opening : String := "var x = \"a\nb\"; \x7b x = x + \"c\"; \x7d @ print x;"

/-- A text with a stray character, a malformed statement and an unbound name. -/
def closing : String := "print x; #\nprint ;\nprint x + y;"

theorem opening_seam : (start 3).run (opening ++ "\n" ++ closing) =
    ⟨(((start 3).run opening).session.run closing).outcome.map (Option.map (.lowered 2)),
      ((start 3).run opening).report.append
        ((((start 3).run opening).session.run closing).report.lowered 2),
      (((start 3).run opening).session.run closing).session⟩ := by
  have answered : ((start 3).run opening).outcome = .ok none := by decide +kernel
  refine run_seam (start 3) opening closing (by decide +kernel) (by decide +kernel) ?_
  intro e same
  rw [answered] at same
  cases same

end Session

end Scriptlet
