import Scriptlet.Proofs.Grammar.Recognition
import Scriptlet.Proofs.Run.Safety
import Scriptlet.Proofs.Session
import Scriptlet.Proofs.Token.Stream

/-! No script breaks a session down. A run of any text answers with nothing, with an error of form or
with an error for which the script can be blamed, and leaves as many scopes open as it found. -/
namespace Scriptlet

/-- The failures for which a script can be blamed, given what is wrong with its form. -/
inductive Failure.Scripted (errors : List ParseError) : Failure → Prop where
  | malformed (mem : e ∈ errors) : Scripted errors (.malformed e)
  | runtime (own : e.Scripted) : Scripted errors (.runtime e)

/-- The messages that a script can bring about, given its stray characters as well. -/
inductive Diagnostic.Scripted (strays : List Token) (errors : List ParseError) :
    Diagnostic → Prop where
  | stray (mem : t ∈ strays) : Scripted strays errors (.stray t)
  | malformed (mem : e ∈ errors) : Scripted strays errors (.malformed e)
  | runtime (own : e.Scripted) : Scripted strays errors (.runtime e)

namespace Session

/-- The statements of any text run safely, those recovered from a malformed one included. -/
theorem statements_safe (source : String) (level budget : Nat) :
    Action.Obeys Action.safety (Node.executeAll level
      (Program.ofStream (Source.stream source)).statements budget) := by
  have derived := Grammar.statements_derive (Source.stream source)
  exact derived.safe (Source.numerals source) level budget

/-- A program that was read to its end and runs safely is answered. -/
theorem runProgram_safe {p : Program} (complete : p.complete = true)
    (safe : ∀ level budget, Action.Obeys Action.safety (Node.executeAll level p.statements budget))
    (s : Session) (strays : List Token) :
    ∃ failure, (s.runProgram p).outcome = .ok failure ∧ (∀ f ∈ failure, f.Scripted p.errors) ∧
      (∀ d ∈ (s.runProgram p).report.diagnostics, d.Scripted strays p.errors) ∧
      (s.runProgram p).session.scopes.depth = s.scopes.depth := by
  have blamed : ∀ f ∈ blame p, f.Scripted p.errors := by
    intro f mem
    obtain ⟨e, head, rfl⟩ := Option.map_eq_some_iff.mp mem
    exact .malformed (List.mem_of_head? head)
  have reported : ∀ d ∈ p.errors.map Diagnostic.malformed, d.Scripted strays p.errors := by
    intro d mem
    obtain ⟨e, own, rfl⟩ := List.mem_map.mp mem
    exact .malformed own
  obtain ⟨left, allowed⟩ := interpret_safe (safe s.level) (.start s.scopes)
  rcases ends : s.ran p.statements with ⟨f | _, m⟩
  · obtain ⟨e, rfl, own⟩ := allowed f (congrArg (·.1) ends)
    rw [runProgram_of_error complete ends]
    refine ⟨_, rfl, ?_, ?_, ?_⟩
    · intro f mem
      rcases Option.or_eq_some_iff.mp mem with mem | ⟨_, same⟩
      · exact blamed f mem
      · cases same
        exact .runtime own
    · intro d mem
      rcases List.mem_append.mp mem with mem | mem
      · exact reported d mem
      · cases List.mem_singleton.mp mem
        exact .runtime own
    · exact (congrArg (·.2.scopes.depth) ends).symm.trans left
  · rw [runProgram_of_ok complete ends]
    exact ⟨_, rfl, blamed, reported, (congrArg (·.2.scopes.depth) ends).symm.trans left⟩

/-- A run of a text never breaks down. It is answered with nothing, with an error of a declaration
that could not be read or with an error for which the script can be blamed; the messages are about
the same, and every scope that the run opened is closed. -/
theorem run_scripted (s : Session) (source : String) :
    TokenStream.ofTokens? (Source.stream source).toList = some (Source.stream source) ∧
      ∃ failure, (s.run source).outcome = .ok failure ∧
        (∀ f ∈ failure, f.Scripted (Program.ofStream (Source.stream source)).errors) ∧
        (∀ d ∈ (s.run source).report.diagnostics,
          d.Scripted (Source.strays source) (Program.ofStream (Source.stream source)).errors) ∧
        (s.run source).session.scopes.depth = s.scopes.depth := by
  refine ⟨TokenStream.ofTokens?_toList rfl, ?_⟩
  have complete : (Program.ofStream (Source.stream source)).complete = true :=
    Grammar.complete_ofStream
  obtain ⟨failure, answered, blamed, reported, left⟩ :=
    runProgram_safe complete (statements_safe source) s (Source.strays source)
  refine ⟨failure, answered, blamed, ?_, left⟩
  intro d mem
  rcases List.mem_append.mp mem with mem | mem
  · obtain ⟨t, own, rfl⟩ := List.mem_map.mp mem
    exact .stray own
  · exact reported d mem

end Session

end Scriptlet
