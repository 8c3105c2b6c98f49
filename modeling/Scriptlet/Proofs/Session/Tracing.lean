import Mathlib.Data.List.Flatten
import Mathlib.Data.List.Forall2
import Scriptlet.Proofs.Run.Tracing
import Scriptlet.Proofs.Session.Seam

/-! Tracing a session does not change it. Whatever is run in it, one text after another, the debug level
changes nothing but how much of each turn is traced, and a higher level traces all that a lower one
does. -/
namespace Scriptlet

namespace Turn

/-- The turn as it would be at a lower debug level. -/
def upTo (level : Nat) (t : Turn) : Turn :=
  { t with
    report := { t.report with trace := t.report.trace.filter (·.level ≤ level) }
    session := { t.session with level := level } }

/-- No limit on nesting stopped the turn. -/
def Shallow (t : Turn) : Prop := .runtime .tooDeep ∉ t.report.diagnostics

instance (t : Turn) : Decidable t.Shallow := inferInstanceAs (Decidable (¬ _))

/-- The turns are the same but for what they trace, and for the debug level. -/
structure Untraced (t u : Turn) : Prop where
  outcome : t.outcome = u.outcome
  output : t.report.output = u.report.output
  diagnostics : t.report.diagnostics = u.report.diagnostics
  scopes : t.session.scopes = u.session.scopes
  hadError : t.session.hadError = u.session.hadError

/-- The messages of the debug trace. -/
def messages (t : Turn) : List String := t.report.trace.map TraceEvent.text

theorem untraced_upTo (level : Nat) (t : Turn) : (t.upTo level).Untraced t := ⟨rfl, rfl, rfl, rfl, rfl⟩

theorem messages_upTo (level : Nat) (t : Turn) : List.Sublist (t.upTo level).messages t.messages :=
  List.filter_sublist.map _

end Turn

namespace Session

/-- The same session at another debug level. -/
def tracing (s : Session) (level : Nat) : Session := { s with level := level }

/-- Runs texts one after another. -/
def turns (s : Session) : List String → List Turn
  | [] => []
  | source :: sources => s.run source :: (s.run source).session.turns sources

theorem tracing_eq_self {s : Session} {level : Nat} (own : s.level = level) : s.tracing level = s := by
  subst own
  rfl

theorem level_run (s : Session) (source : String) : (s.run source).session.level = s.level := by
  have complete : (Program.ofStream (Source.stream source)).complete = true := Grammar.complete_ofStream
  obtain ⟨m, ends | ⟨e, ends⟩⟩ := s.ran_of_source source
  · rw [run, runProgram_of_ok complete ends]
  · rw [run, runProgram_of_error complete ends]

section Levels

variable {low high : Nat} (le : low ≤ high)
include le

theorem ran_tracing (s : Session) (source : String)
    (shallow : ((s.tracing high).ran (Program.ofStream (Source.stream source)).statements).1 ≠
      .error (.error .tooDeep)) :
    (s.tracing low).ran (Program.ofStream (Source.stream source)).statements =
      (((s.tracing high).ran (Program.ofStream (Source.stream source)).statements).1,
        ((s.tracing high).ran (Program.ofStream (Source.stream source)).statements).2.upTo low) := by
  have derived := Grammar.statements_derive (Source.stream source)
  exact interpret_muted (derived.muted le) shallow

/-- A turn at the lower level is the turn at the higher one, with less traced. -/
theorem run_tracing (s : Session) (source : String)
    (shallow : ((s.tracing high).run source).Shallow) :
    (s.tracing low).run source = ((s.tracing high).run source).upTo low := by
  have complete : (Program.ofStream (Source.stream source)).complete = true := Grammar.complete_ofStream
  have same := s.ran_tracing le source
  obtain ⟨m, ends | ⟨e, ends⟩⟩ := (s.tracing high).ran_of_source source
  · rw [ends] at same
    have quiet := same fun deep => by cases deep
    simp only [run, runProgram_of_ok complete ends, runProgram_of_ok complete quiet]
    rfl
  · rw [ends] at same
    have other : e ≠ .tooDeep := by
      rintro rfl
      simp [Turn.Shallow, run, runProgram_of_error complete ends] at shallow
    have quiet := same fun deep => other (Fault.error.inj (Except.error.inj deep))
    simp only [run, runProgram_of_error complete ends, runProgram_of_error complete quiet]
    rfl

theorem turns_tracing (s : Session) (sources : List String)
    (shallow : ∀ t ∈ (s.tracing high).turns sources, t.Shallow) :
    (s.tracing low).turns sources = ((s.tracing high).turns sources).map (.upTo low) := by
  induction sources generalizing s with
  | nil => rfl
  | cons source sources ih =>
    obtain ⟨first, others⟩ := List.forall_mem_cons.mp shallow
    have kept : ((s.tracing high).run source).session.tracing high =
        ((s.tracing high).run source).session :=
      tracing_eq_self ((s.tracing high).level_run source)
    rw [turns, turns, List.map_cons, s.run_tracing le source first]
    rw [← kept] at others ⊢
    exact congrArg _ (ih _ others)

/-- Whatever is run one after another, at two debug levels: the turns are the same but for what is
traced, and the messages of the lower level are found among those of the higher one, in order. No
limit on nesting may stop a turn, since rendering a tree for the trace is as deep as the tree. -/
theorem turns_untraced (s : Session) (sources : List String)
    (shallow : ∀ t ∈ (s.tracing high).turns sources, t.Shallow) :
    List.Forall₂ Turn.Untraced ((s.tracing low).turns sources) ((s.tracing high).turns sources) ∧
      List.Sublist (((s.tracing low).turns sources).flatMap Turn.messages)
        (((s.tracing high).turns sources).flatMap Turn.messages) := by
  rw [turns_tracing le s sources shallow]
  constructor
  · rw [List.forall₂_map_left_iff, List.forall₂_same]
    exact fun t _ => t.untraced_upTo low
  · rw [List.flatMap_map]
    exact List.Sublist.flatMap_right _ fun t _ => t.messages_upTo low

end Levels

/-- A block with a malformed statement, an operand that is no number inside of two blocks, and a name
that the first text has bound. -/
def troubled : List String :=
  ["var a = \"x\"; \x7b var b = a + a; print ; print b; \x7d", "\x7b var b = a; \x7b b = -b; \x7d \x7d",
    "a = a + 1; print a == \"x\";"]

theorem troubled_untraced : 1 ≤ 3 ∧
    (∀ t ∈ ((start 0).tracing 3).turns troubled, t.Shallow) ∧
    List.Forall₂ Turn.Untraced (((start 0).tracing 1).turns troubled)
      (((start 0).tracing 3).turns troubled) ∧
    List.Sublist ((((start 0).tracing 1).turns troubled).flatMap Turn.messages)
      ((((start 0).tracing 3).turns troubled).flatMap Turn.messages) := by
  have shallow : ∀ t ∈ ((start 0).tracing 3).turns troubled, t.Shallow := by decide +kernel
  exact ⟨by decide, shallow, turns_untraced (by decide) (start 0) troubled shallow⟩

end Session

end Scriptlet
