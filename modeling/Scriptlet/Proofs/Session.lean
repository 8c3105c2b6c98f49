import Scriptlet.Proofs.Run.Action
import Scriptlet.Session

/-! The turns of a session, by how the statements of its program end. -/
namespace Scriptlet.Session

/-- Runs statements on a session's bindings. -/
def ran (s : Session) (statements : List Node) : Except Fault Unit × Machine :=
  (Scriptlet.interpret s.level statements).exec (.start s.scopes)

/-- What a program has to answer for its form. -/
def blame (p : Program) : Option Failure := p.errors.head?.map .malformed

variable {s : Session} {p : Program} {m : Machine}

theorem interpret_eq (statements : List Node) : s.interpret statements =
    ((s.ran statements).1, ⟨(s.ran statements).2.output, [], (s.ran statements).2.trace⟩,
      { s with scopes := (s.ran statements).2.scopes }) := rfl

theorem runProgram_of_ok (complete : p.complete = true) (ends : s.ran p.statements = (.ok (), m)) :
    s.runProgram p = ⟨.ok (blame p), ⟨m.output, p.errors.map .malformed, m.trace⟩,
      ⟨m.scopes, s.hadError || (blame p).isSome, s.level⟩⟩ := by
  rw [runProgram, if_pos complete, interpret_eq, ends]
  rfl

theorem runProgram_of_error (complete : p.complete = true)
    (ends : s.ran p.statements = (.error (.error e), m)) :
    s.runProgram p = ⟨.ok ((blame p).or (some (.runtime e))),
      ⟨m.output, p.errors.map .malformed ++ [.runtime e], m.trace⟩, ⟨m.scopes, true, s.level⟩⟩ := by
  rw [runProgram, if_pos complete, interpret_eq, ends]
  rfl

/-- Any other fault breaks the session down, and leaves no error on record. -/
theorem runProgram_of_fault (complete : p.complete = true)
    (ends : s.ran p.statements = (.error f, m)) (other : ∀ e, f ≠ .error e) :
    s.runProgram p = ⟨.error (.fault f), ⟨m.output, p.errors.map .malformed, m.trace⟩,
      ⟨m.scopes, s.hadError, s.level⟩⟩ := by
  rw [runProgram, if_pos complete, interpret_eq, ends]
  cases f with
  | error e => exact absurd rfl (other e)
  | _ => rfl

theorem runProgram_of_unread (unread : p.complete = false) : s.runProgram p =
    ⟨.ok ((blame p).or (some .unread)), ⟨"", p.errors.map .malformed ++ [.unread], []⟩,
      ⟨s.scopes, true, s.level⟩⟩ := by
  rw [runProgram, if_neg (Bool.eq_false_iff.mp unread)]
  rfl

end Scriptlet.Session
