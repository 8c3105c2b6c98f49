import Scriptlet.Proofs.Run.Brackets
import Scriptlet.Proofs.Session.Safety

/-! The trace of a script. Pushes and pops of scopes are bracketed in it, whatever the script; the
pushes left open tell in which blocks it failed, while the session is back in its global scope. -/
namespace Scriptlet

open Scriptlet.Node (executeAll executeAll_bracketed)

theorem unclosed_of_read (read : Bracketing.ofTrace trace = some ⟨announced, opened⟩) :
    unclosed trace = some opened.reverse := by
  rw [unclosed, read]
  rfl

/-- A run from the global scope traces a well-bracketed text. It leaves no push open if it gets to its
end. If an error ends it, other than for nesting, the open pushes are those of the blocks in which it
failed. -/
theorem interpret_unclosed {scopes : Scopes} {level : Nat} (one : scopes.depth = 1)
    (loud : 2 ≤ level) (ns : List Node) :
    let ran := (interpret level ns).exec (.start scopes)
    ∃ opened, unclosed ran.2.trace = some opened ∧ (ran.1 = .ok () → opened = []) ∧
      ∀ e, ran.1 = .error (.error e) → e ≠ .tooDeep → ∃ blocks,
        FailsIn level nestingLimit ns scopes (.error e) blocks ∧ LeftOpen 2 blocks opened := by
  have result := executeAll_bracketed loud ns nestingLimit (.start scopes) [] ⟨⟨none, rfl⟩, one⟩
  rw [exec_interpret]
  rcases run : (executeAll level ns nestingLimit).exec (.start scopes) with ⟨f | done, m⟩ <;>
    rw [run] at result
  · obtain ⟨announced, more, read, blame⟩ := result.failed f rfl
    rw [List.append_nil] at read
    refine ⟨more.reverse, ?_, ?_⟩
    · cases f <;> exact unclosed_of_read read
    · cases f with
      | error e =>
        refine ⟨nofun, fun e' same _ => ?_⟩
        cases same
        exact blame e rfl
      | tooDeep =>
        refine ⟨nofun, fun e same deep => ?_⟩
        cases same
        exact absurd rfl deep
      | _ => exact ⟨nofun, nofun⟩
  · obtain ⟨announced, read⟩ := (result.ended rfl).read
    exact ⟨[], unclosed_of_read read, fun _ => rfl, nofun⟩

namespace Session

/-- A run of any text, from a session that is in its global scope and traces scopes, traces them well
bracketed, and ends in the global scope. No push is left open if there is no error at runtime. If there
is one, other than for nesting, those left open belong to the blocks around the statement that failed,
the outermost first, and carry the depths from two on. -/
theorem run_unclosed (s : Session) (source : String) (one : s.scopes.depth = 1)
    (loud : 2 ≤ s.level) :
    (s.run source).session.scopes.depth = 1 ∧
    ∃ opened, unclosed (s.run source).report.trace = some opened ∧
      ((∀ e, .runtime e ∉ (s.run source).report.diagnostics) → opened = []) ∧
      ∀ e, .runtime e ∈ (s.run source).report.diagnostics → e ≠ .tooDeep → ∃ blocks n,
        FailsAt s.level (.error e) nestingLimit
          (Program.ofStream (Source.stream source)).statements s.scopes blocks n ∧
        opened.map (·.depth) = List.range' 2 blocks.length ∧
        List.Forall₂ (fun n o => ∃ budget, n.render budget = .ok o.shown) blocks opened := by
  obtain ⟨_, _, _, _, _, depth⟩ := run_scripted s source
  refine ⟨depth.trans one, ?_⟩
  have complete : (Program.ofStream (Source.stream source)).complete = true :=
    Grammar.complete_ofStream
  obtain ⟨opened, read, closed, blame⟩ :=
    interpret_unclosed one loud (Program.ofStream (Source.stream source)).statements
  have safe := (interpret_safe (statements_safe source s.level) (.start s.scopes)).2
  change unclosed (s.ran _).2.trace = _ at read
  change (s.ran _).1 = _ → _ at closed
  change ∀ e, (s.ran _).1 = _ → _ at blame
  change ∀ f, (s.ran _).1 = _ → _ at safe
  rcases ends : s.ran (Program.ofStream (Source.stream source)).statements with ⟨f | done, m⟩ <;>
    rw [ends] at read closed blame safe
  · obtain ⟨e, rfl, _⟩ := safe f rfl
    have turn := runProgram_of_error complete ends
    refine ⟨opened, ?_, ?_, ?_⟩
    · rw [run, turn]
      exact read
    · intro none
      refine absurd ?_ (none e)
      simp [run, turn]
    · intro e' mem deep
      obtain rfl : e' = e := by simpa [run, turn] using mem
      obtain ⟨blocks, ⟨n, failed⟩, left⟩ := blame e' rfl deep
      exact ⟨blocks, n, failed, left.depths, left.shown⟩
  · have turn := runProgram_of_ok complete ends
    refine ⟨opened, ?_, fun _ => closed rfl, ?_⟩
    · rw [run, turn]
      exact read
    · intro e mem
      simp [run, turn] at mem

/-- A block that ends, and one inside another in which a name is not bound. -/
def astray : String := "\x7b var a = nil; \x7d \x7b print nil; \x7b print a; \x7d \x7d"

theorem astray_unclosed : (start 2).scopes.depth = 1 ∧ 2 ≤ 2 ∧
    unclosed ((start 2).run astray).report.trace =
      some [⟨"(block (print nil) (block (print a)))", 2⟩, ⟨"(block (print a))", 3⟩] ∧
    ∃ outer inner n, FailsAt 2 (.error (.undefinedVariable "a")) nestingLimit
      (Program.ofStream (Source.stream astray)).statements .initial [outer, inner] n := by
  have left : unclosed ((start 2).run astray).report.trace =
      some [⟨"(block (print nil) (block (print a)))", 2⟩, ⟨"(block (print a))", 3⟩] := by
    decide +kernel
  refine ⟨rfl, Nat.le_refl 2, left, ?_⟩
  obtain ⟨_, opened, read, _, blame⟩ := run_unclosed (start 2) astray rfl (Nat.le_refl 2)
  obtain ⟨blocks, n, failed, depths, _⟩ := blame (.undefinedVariable "a") (by decide +kernel)
    (by decide)
  obtain rfl := Option.some.inj (read.symm.trans left)
  have two : blocks.length = 2 := by simpa using (congrArg List.length depths).symm
  obtain ⟨outer, inner, rfl⟩ := List.length_eq_two.mp two
  exact ⟨outer, inner, n, failed⟩

end Session

end Scriptlet
