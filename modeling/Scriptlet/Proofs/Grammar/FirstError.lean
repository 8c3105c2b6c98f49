import Scriptlet.Proofs.Grammar.Halting
import Scriptlet.Proofs.Grammar.Recognition

/-! The first error stands where a text first leaves the grammar: what is in front of it can be
completed to a program, and with the token it names no longer can. -/
namespace Scriptlet.Grammar

open Scriptlet.Program (declaration many)

section Halting

variable {l : Nat} {before named : List Token} {o : Obstacle}
  (halts : Halts (firstOfMany List.isEmpty) Loose.Program l before o)
  (same : named.head? = o.named.head?)
include halts same

/-- Only the target of an assignment may keep a text of the looser grammar from being read. -/
theorem Halts.not_loose (own : o.cause ≠ .assignmentTarget) : ¬ Loose.Program (before ++ named) := by
  intro derived
  obtain ⟨k, objects⟩ := derived.objects
  obtain ⟨o', met, here⟩ := halts.fails (max k l) named (Nat.le_max_right k l) same
  have target := objects (max k l) (Nat.le_max_left k l) o' met
  rw [here own] at target
  exact own target

/-- Nothing keeps a program from being read. -/
theorem Halts.not_derived : ¬ Program (before ++ named) ns := by
  intro derived
  obtain ⟨k, declares⟩ := Declarations.declares derived
  obtain ⟨o', met, _⟩ := halts.fails (max k l) named (Nat.le_max_right k l) same
  have read : many (declaration (max k l)) List.isEmpty _ (before ++ named ++ []) = _ :=
    declares.enough (Nat.le_max_left k l) passes_isEmpty (Nat.le_refl _)
  rw [List.append_nil] at read
  rw [firstOfMany, read] at met
  cases met

end Halting

/-- Where the token that an obstacle names stands among the tokens of a stream. -/
def placeOf (s : TokenStream) (o : Obstacle) : Nat := s.body.length - o.named.length

section Place

variable {s : TokenStream} {o : Obstacle} {before : List Token} (whole : s.body = before ++ o.named)
include whole

theorem placeOf_eq : placeOf s o = before.length := by
  rw [placeOf, whole, List.length_append]
  omega

theorem take_placeOf : s.toList.take (placeOf s o) = before := by
  rw [placeOf_eq whole, TokenStream.toList, whole, List.append_assoc, List.take_left]

theorem getElem?_placeOf : s.toList[placeOf s o]? = some (o.error s.stop).found := by
  rw [placeOf_eq whole, TokenStream.toList, whole, List.append_assoc,
    List.getElem?_append_right (Nat.le_refl _), Nat.sub_self, Obstacle.error]
  cases o.named <;> rfl

theorem take_placeOf_succ :
    s.toList.take (placeOf s o + 1) = before ++ [(o.error s.stop).found] := by
  rw [List.take_add_one, take_placeOf whole, getElem?_placeOf whole]
  rfl

/-- An error that names the end of input is met where no tokens are left. -/
theorem named_eq_nil (ends : (o.error s.stop).found.kind = .endOfInput) : o.named = [] := by
  cases named : o.named with
  | nil => rfl
  | cons t rest =>
    rw [Obstacle.error, named] at ends
    refine absurd ends (s.open_body t ?_)
    rw [whole, named]
    simp

end Place

/-- Every list of tokens that closes with an end of input is read. Its first error, if that is not for
want of depth, comes from an obstacle, and names the token at its place. If something was expected,
what stands in front of that token can be completed to a program of the looser grammar, but not
together with the token; and if that is the end of input, it is no such program as it stands. If the
target of an assignment is at fault, the token is the equals sign, and what stands up to and with it
can be completed to a program of the looser grammar, but to none of the grammar itself. -/
theorem first_error_leaves (front : List Token) (stop : Token) (ends : stop.kind = .endOfInput) :
    ∃ s, TokenStream.ofTokens? (front ++ [stop]) = some s ∧
      ∀ e es, (Program.ofStream s).errors = e :: es → e.cause ≠ .tooDeep →
        ∃ o, (recovered s.body).obstacles.head? = some o ∧ o.error s.stop = e ∧
          (front ++ [stop])[placeOf s o]? = some e.found ∧
          (e.cause ≠ .assignmentTarget →
            (∃ vs, Loose.Program ((front ++ [stop]).take (placeOf s o) ++ vs)) ∧
            (∀ vs, ¬ Loose.Program ((front ++ [stop]).take (placeOf s o + 1) ++ vs)) ∧
            (e.found.kind = .endOfInput →
              ¬ Loose.Program ((front ++ [stop]).take (placeOf s o)))) ∧
          (e.cause = .assignmentTarget → e.found.kind = .symbol .equal ∧
            (∃ vs, Loose.Program ((front ++ [stop]).take (placeOf s o + 1) ++ vs)) ∧
            ∀ vs ns, ¬ Program ((front ++ [stop]).take (placeOf s o + 1) ++ vs) ns) := by
  obtain ⟨s, given, _⟩ := @ofTokens?_of_ends front stop ends
  refine ⟨s, given, fun e es errors shallow => ?_⟩
  rw [← TokenStream.toList_of_ofTokens? given]
  obtain ⟨o, os, obstacles, rfl, rfl⟩ := List.map_eq_cons_iff.mp errors
  have obstacles : (recovered s.body).obstacles = o :: os := obstacles
  have met : o ∈ (recovered s.body).obstacles.head? := by rw [obstacles]; rfl
  obtain ⟨before, whole, halts⟩ := many_stuck (declaration_hindered blockLevels) passes_isEmpty
    foresees_isEmpty (Nat.le_refl s.body.length) met shallow
  refine ⟨o, met, rfl, getElem?_placeOf whole, ?expected, ?target⟩
  all_goals rw [take_placeOf_succ whole]
  case expected =>
    intro own
    have none : conceded o = [] := if_neg own
    obtain ⟨vs, viable⟩ := halts.viable
    rw [none] at viable
    rw [take_placeOf whole]
    refine ⟨⟨vs, viable⟩, fun ws derived => ?_, fun last => ?_⟩
    · cases named : o.named with
      | nil =>
        -- The token is the end of input, which no program holds.
        rw [Obstacle.error, named] at derived
        exact derived.opened s.stop (by simp) s.stop_kind
      | cons t rest =>
        rw [Obstacle.error, named, List.append_assoc] at derived
        exact halts.not_loose (by rw [named]; rfl) own derived
    · rw [← List.append_nil before]
      exact halts.not_loose (by rw [named_eq_nil whole last]) own
  case target =>
    intro cause
    obtain ⟨t, first, sign⟩ := halts.marks cause
    obtain ⟨rest, named⟩ := List.head?_eq_some_iff.mp first
    have found : (o.error s.stop).found = t := by rw [Obstacle.error, named]; rfl
    have kept : conceded o = [t] := (if_pos cause).trans (by rw [named]; rfl)
    obtain ⟨vs, viable⟩ := halts.viable
    rw [kept] at viable
    simp only [found, List.append_assoc]
    exact ⟨sign, ⟨vs, viable⟩, fun ws ns => halts.not_derived (by rw [named]; rfl)⟩

/-- The tokens of `{ print ( a ; 1 = 2 ;`, in which a parenthesis is left open. -/
def leftOpen : List Token :=
  [⟨.symbol .leftBrace, "\x7b", 1⟩, ⟨.keyword .print, "print", 1⟩, ⟨.symbol .leftParen, "(", 1⟩,
    ⟨.identifier, "a", 1⟩, ⟨.symbol .semicolon, ";", 1⟩, ⟨.number, "1", 1⟩, ⟨.symbol .equal, "=", 1⟩,
    ⟨.number, "2", 1⟩, ⟨.symbol .semicolon, ";", 1⟩]

theorem leftOpen_leaves : (∃ vs, Loose.Program (leftOpen.take 4 ++ vs)) ∧
    ∀ vs, ¬ Loose.Program (leftOpen.take 5 ++ vs) := by
  obtain ⟨s, given, first⟩ := first_error_leaves leftOpen ⟨.endOfInput, "", 1⟩ rfl
  cases given
  obtain ⟨o, met, _, _, expected, _⟩ := first ⟨.closingParen, ⟨.symbol .semicolon, ";", 1⟩⟩ _ rfl
    (by decide)
  obtain rfl : .here .closingParen (leftOpen.drop 4) = o := Option.some.inj met
  obtain ⟨viable, leaves, _⟩ := expected (by decide)
  exact ⟨viable, leaves⟩

end Scriptlet.Grammar
