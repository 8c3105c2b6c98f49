import Scriptlet.Proofs.Cursor.Program
import Scriptlet.Proofs.Session

/-! Scripts that end before their last token. What a session does with a list of tokens hangs on where
reading by place comes to its end: in front of the last token the statements that were read are run,
and anywhere else none of them is. -/
namespace Scriptlet

/-- No other message reads like the one about tokens that were left. -/
theorem Diagnostic.text_eq_unread_iff (d : Diagnostic) :
    d.text = Diagnostic.unread.text ↔ d = .unread := by
  refine ⟨fun same => ?_, fun same => congrArg text same⟩
  -- They differ in the eighth character at the latest.
  have begins := congrArg (fun s : String => s.toList.take 8) same
  cases d with
  | unread => rfl
  | stray t => simp [text, strayText, String.toList_append] at begins
  | malformed e => simp [text, ParseError.message, String.toList_append] at begins
  | runtime e => simp [text, String.toList_append] at begins

namespace Session

variable {s : Session} {p : Program}

/-- A program that was read to its end is handed over for what it is, whatever its errors. -/
theorem runProgram_of_complete (complete : p.complete = true) :
    (s.runProgram p).report.output = (s.interpret p.statements).2.1.output ∧
      (s.runProgram p).report.trace = (s.interpret p.statements).2.1.trace ∧
      (s.runProgram p).session.scopes = (s.interpret p.statements).2.2.scopes ∧
      (s.runProgram p).outcome ≠ .ok (some .unread) ∧
      .unread ∉ (s.runProgram p).report.diagnostics := by
  have formal : Diagnostic.unread ∉ p.errors.map .malformed := by simp
  have blamed : blame p ≠ some .unread := by simp [blame]
  rcases ends : s.ran p.statements with ⟨fault | ⟨⟩, m⟩
  · by_cases error : ∃ e, fault = .error e
    · obtain ⟨e, rfl⟩ := error
      have first : (blame p).or (some (.runtime e)) ≠ some .unread := by
        cases given : blame p with
        | none => simp
        | some f => simpa [given] using blamed
      rw [runProgram_of_error complete ends, interpret_eq, ends]
      refine ⟨rfl, rfl, rfl, fun same => first (Except.ok.inj same), ?_⟩
      simp
    · have other : ∀ e, fault ≠ .error e := fun e same => error ⟨e, same⟩
      rw [runProgram_of_fault complete ends other, interpret_eq, ends]
      exact ⟨rfl, rfl, rfl, nofun, formal⟩
  · rw [runProgram_of_ok complete ends, interpret_eq, ends]
    exact ⟨rfl, rfl, rfl, fun same => blamed (Except.ok.inj same), formal⟩

/-- Tokens that close with an end of input are read by place, with some statements and errors, and
reading gets to the last token unless there is an end of input before it. If there is one, the
session has an error on record and is otherwise as it was: nothing is written but the errors and that
tokens are left, and the first of these messages is the answer. If there is none, all statements that
were read are run, whatever the errors, and neither the answer nor a message is about tokens that
are left. -/
theorem runTokens_by_place (s : Session) (front : List Token) (stop : Token)
    (ends : stop.kind = .endOfInput) :
    ∃ statements m,
      Cursor.exec (Cursor.program (front ++ [stop]) (front ++ [stop]).length) .start =
        (.ok statements, m) ∧
      (m.atLast (front ++ [stop]) ↔ ∀ t ∈ front, t.kind ≠ .endOfInput) ∧
      ((∃ t ∈ front, t.kind = .endOfInput) → s.runTokens (front ++ [stop]) =
        ⟨.ok (some ((m.errors.head?.map .malformed).getD .unread)),
          ⟨"", m.errors.map .malformed ++ [.unread], []⟩, { s with hadError := true }⟩) ∧
      ((∀ t ∈ front, t.kind ≠ .endOfInput) →
        (s.runTokens (front ++ [stop])).report.output = (s.interpret statements).2.1.output ∧
        (s.runTokens (front ++ [stop])).report.trace = (s.interpret statements).2.1.trace ∧
        (s.runTokens (front ++ [stop])).session.scopes = (s.interpret statements).2.2.scopes ∧
        (s.runTokens (front ++ [stop])).outcome ≠ .ok (some .unread) ∧
        ∀ d ∈ (s.runTokens (front ++ [stop])).report.diagnostics,
          d.text ≠ Diagnostic.unread.text) := by
  obtain ⟨stream, given, _⟩ := @Grammar.ofTokens?_of_ends front stop ends
  have whole := TokenStream.toList_of_ofTokens? given
  obtain ⟨m, read, place, errors, _⟩ := Cursor.exec_program stream (Nat.le_refl _)
  rw [whole] at read
  have turn : s.runTokens (front ++ [stop]) = s.runProgram (.ofStream stream) := by
    rw [runTokens, given]
  have last : m.atLast (front ++ [stop]) ↔ stream.isWhole = true := by
    rw [Cursor.State.atLast, place, ← whole]
    exact stream.length_body_iff
  refine ⟨_, m, read, last.trans (TokenStream.isWhole_iff given), ?early, ?only⟩ <;> rw [turn]
  case early =>
    rintro ⟨t, before, ended⟩
    have unread : (Program.ofStream stream).complete = false := by
      rw [Grammar.complete_ofStream, Bool.eq_false_iff]
      exact fun only => (TokenStream.isWhole_iff given).mp only t before ended
    rw [runProgram_of_unread unread, blame, ← errors]
    cases m.errors <;> rfl
  case only =>
    intro only
    have complete : (Program.ofStream stream).complete = true := by
      rw [Grammar.complete_ofStream]
      exact (TokenStream.isWhole_iff given).mpr only
    obtain ⟨output, trace, scopes, outcome, messages⟩ := runProgram_of_complete (s := s) complete
    refine ⟨output, trace, scopes, outcome, ?_⟩
    intro d mem same
    exact messages (d.text_eq_unread_iff.mp same ▸ mem)

/-- A text to be printed, an end of input, and a parenthesis behind it. -/
def closedEarly : List Token :=
  [⟨.keyword .print, "print", 1⟩, ⟨.string, "x", 1⟩, ⟨.symbol .semicolon, ";", 1⟩,
    ⟨.endOfInput, "", 1⟩, ⟨.symbol .rightParen, ")", 1⟩]

/-- With the parenthesis behind it the text is not printed; with the first end of input as the last
token, it is what the statements read print. -/
theorem closedEarly_by_place :
    (start 2).runTokens (closedEarly ++ [⟨.endOfInput, "", 1⟩]) =
        ⟨.ok (some .unread), ⟨"", [.unread], []⟩, ⟨.initial, true, 2⟩⟩ ∧
      ∃ statements m,
        Cursor.exec (Cursor.program (closedEarly.take 3 ++ [⟨.endOfInput, "", 1⟩]) 4) .start =
          (.ok statements, m) ∧
        ((start 2).interpret statements).2.1.output = "x\n" := by
  obtain ⟨_, m, read, _, early, _⟩ :=
    runTokens_by_place (start 2) closedEarly ⟨.endOfInput, "", 1⟩ rfl
  obtain ⟨statements, m', read', _, _, only⟩ :=
    runTokens_by_place (start 2) (closedEarly.take 3) ⟨.endOfInput, "", 1⟩ rfl
  have formal : m.errors = [] := (congrArg (·.2.errors) read).symm.trans (by decide +kernel)
  constructor
  · rw [early ⟨⟨.endOfInput, "", 1⟩, by decide, rfl⟩, formal]
    rfl
  · exact ⟨statements, m', read', (only (by decide)).1.symm.trans (by decide +kernel)⟩

end Session

end Scriptlet
