import Mathlib.Data.List.TakeWhile
import Scriptlet.Proofs.Grammar.Completeness

/-! Reading recognises the grammar: limits on depth apart, a program is read without an error exactly
if it derives, and then its statements are the trees of the only derivation there is. -/
namespace Scriptlet.Grammar

open Scriptlet.Program (many declaration Recovered)

/-- How many levels of blocks a program may nest. -/
def blockLevels : Nat := nestingLimit / Program.stepsPerBlock

/-- What a whole text is read as. -/
def recovered (ts : List Token) : Recovered :=
  many (declaration blockLevels) List.isEmpty ts.length ts

section Stream

variable {s : TokenStream} {ts : List Token}

theorem statements_ofStream : (Program.ofStream s).statements = (recovered s.body).statements := rfl

theorem errors_ofStream :
    (Program.ofStream s).errors = (recovered s.body).obstacles.map (·.error s.stop) := rfl

/-- A text is read to its end whatever stands in it. -/
theorem rest_recovered : (recovered ts).rest = [] := by
  have slack : Slack (fun us => us ≠ []) (recovered ts).obstacles := fun _ _ => id
  have read := (declaration_faithful blockLevels).many_derives passes_isEmpty.stops
    (Nat.le_refl ts.length) slack
  exact List.isEmpty_iff.mp read.1

theorem complete_ofStream : (Program.ofStream s).complete = s.isWhole := by
  have read : (recovered s.body).rest = [] := rest_recovered
  change ((recovered s.body).rest.isEmpty && s.isWhole) = s.isWhole
  rw [read, List.isEmpty_nil, Bool.true_and]

/-- The statements derive, with stretches left out only if there are obstacles. -/
theorem recovered_derives (slack : Slack gap (recovered ts).obstacles) :
    Declarations gap ts (recovered ts).statements := by
  obtain ⟨_, us, whole, derived⟩ := (declaration_faithful blockLevels).many_derives
    passes_isEmpty.stops (Nat.le_refl ts.length) slack
  have read : (recovered ts).rest = [] := rest_recovered
  unfold recovered at read
  rw [read, List.append_nil] at whole
  exact whole ▸ derived

/-- Whatever the tokens are, the statements read from them derive, if stretches may be left out. -/
theorem statements_derive (s : TokenStream) :
    Declarations (fun us => us ≠ []) s.body (Program.ofStream s).statements :=
  recovered_derives fun _ _ => id

theorem derives_of_errors_nil (clean : (Program.ofStream s).errors = []) :
    Program s.body (Program.ofStream s).statements :=
  recovered_derives fun some => absurd (List.map_eq_nil_iff.mp clean) some

/-- Depth shows among the errors. -/
theorem error_of_deep (deep : Deep (recovered s.body).obstacles) :
    ∃ e ∈ (Program.ofStream s).errors, e.cause = .tooDeep := by
  obtain ⟨o, mem, cause⟩ := deep
  exact ⟨o.error s.stop, List.mem_map_of_mem mem, cause⟩

/-- Declarations that derive are read in front of any text, unless depth stands in the way. -/
theorem recovered_append (derived : Program ts ns) :
    (∀ us, recovered (ts ++ us) = ⟨ns ++ (recovered us).statements, (recovered us).obstacles, []⟩) ∨
      ∀ us, Deep (recovered (ts ++ us)).obstacles := by
  obtain ⟨k, declares⟩ := Declarations.declares derived
  by_cases le : k ≤ blockLevels
  · refine .inl ?_
    intro us
    have read := declares.enough le passes_isEmpty (Nat.le_refl (ts ++ us).length)
    have rest : (recovered us).rest = [] := rest_recovered
    rw [← rest]
    exact read
  · refine .inr ?_
    intro us
    exact declares.short (Nat.lt_of_not_le le) passes_isEmpty (Nat.le_refl (ts ++ us).length)

/-- A text that is in order is read in front of any other. -/
theorem recovered_append_of_errors_nil (clean : (Program.ofStream s).errors = [])
    (us : List Token) : recovered (s.body ++ us) =
      ⟨(Program.ofStream s).statements ++ (recovered us).statements, (recovered us).obstacles, []⟩ := by
  rcases recovered_append (derives_of_errors_nil clean) with read | deep
  · exact read us
  · have deep := deep []
    rw [List.append_nil] at deep
    obtain ⟨e, mem, _⟩ := error_of_deep deep
    rw [clean] at mem
    cases mem

theorem ofStream_of_derives (derived : Program s.body ns)
    (shallow : ∀ e ∈ (Program.ofStream s).errors, e.cause ≠ .tooDeep) :
    (Program.ofStream s).errors = [] ∧ (Program.ofStream s).statements = ns := by
  rcases recovered_append derived with read | deep
  · have read := read []
    rw [List.append_nil] at read
    rw [errors_ofStream, statements_ofStream, read]
    exact ⟨rfl, List.append_nil ns⟩
  · have deep := deep []
    rw [List.append_nil] at deep
    obtain ⟨e, mem, cause⟩ := error_of_deep deep
    exact absurd cause (shallow e mem)

end Stream

theorem ofTokens?_of_ends {front : List Token} {stop : Token} (ends : stop.kind = .endOfInput) :
    ∃ s, TokenStream.ofTokens? (front ++ [stop]) = some s ∧
      s.body = (front ++ [stop]).takeWhile (·.kind != .endOfInput) := by
  have last : (front ++ [stop]).getLast?.any (·.kind = .endOfInput) = true := by simp [ends]
  unfold TokenStream.ofTokens?
  rw [if_pos last]
  split
  · exact ⟨_, rfl, rfl⟩
  next none =>
    have all := List.dropWhile_eq_nil_iff.mp none stop (by simp)
    simp [ends] at all

/-- Every list of tokens that closes with an end of input is read; if no limit on depth is met, it is
read without an error exactly if the tokens in front of the first end of input derive, with the
trees of their derivation as the statements. -/
theorem errors_nil_iff_derives (front : List Token) (stop : Token)
    (ends : stop.kind = .endOfInput) :
    ∃ s, TokenStream.ofTokens? (front ++ [stop]) = some s ∧
      ((∀ e ∈ (Program.ofStream s).errors, e.cause ≠ .tooDeep) → ∀ ns,
        ((Program.ofStream s).errors = [] ∧ (Program.ofStream s).statements = ns ↔
          Program ((front ++ [stop]).takeWhile (·.kind != .endOfInput)) ns)) := by
  obtain ⟨s, given, body⟩ := ofTokens?_of_ends ends
  refine ⟨s, given, fun shallow ns => ?_⟩
  rw [← body]
  constructor
  · rintro ⟨clean, rfl⟩
    exact derives_of_errors_nil clean
  · intro derived
    exact ofStream_of_derives derived shallow

/-- The program `a = -b;` -/
def negatedCopy : List Token :=
  [⟨.identifier, "a", 1⟩, ⟨.symbol .equal, "=", 1⟩, ⟨.symbol .minus, "-", 1⟩, ⟨.identifier, "b", 1⟩,
    ⟨.symbol .semicolon, ";", 1⟩]

theorem negatedCopy_derives : Program negatedCopy
    [.expression (.assign ⟨.identifier, "a", 1⟩
      (.unary ⟨.symbol .minus, "-", 1⟩ (.reference ⟨.identifier, "b", 1⟩)))] := by
  obtain ⟨s, given, read⟩ := errors_nil_iff_derives negatedCopy ⟨.endOfInput, "", 1⟩ rfl
  cases given
  exact (read (by decide) _).mp ⟨rfl, rfl⟩

end Scriptlet.Grammar
