import Scriptlet.Decimal.Numeral
import Scriptlet.Proofs.Decimal.Value
import Scriptlet.Proofs.Token.Tiling

/-! What a numeral is worth, exactly. Reading one rounds its value, also where the powers of ten are
never raised. -/
namespace Scriptlet.Numeral

/-- The digits behind a point, if there is one, and what follows. -/
def places : List Char → List Char × List Char
  | '.' :: cs => (cs.takeWhile Char.isDigit, cs.dropWhile Char.isDigit)
  | cs => ([], cs)

/-- The decimal that is spelt with an optional point and an optional exponent. -/
def decimal? (cs : List Char) : Option Decimal :=
  let whole := cs.takeWhile Char.isDigit
  let (fraction, rest) := places (cs.dropWhile Char.isDigit)
  if whole ++ fraction = [] then none
  else (exponent? rest).map fun exponent =>
    ⟨natural (whole ++ fraction), exponent - fraction.length⟩

/-- The value of a numeral, which may have a sign. -/
def value? (cs : List Char) : Option ℚ :=
  let (negative, cs) := sign cs
  (decimal? cs).map fun d => if negative then -d.value else d.value

section Digits

variable {cs : List Char}

theorem natural_append (cs ds : List Char) :
    natural (cs ++ ds) = 10 ^ ds.length * natural cs + natural ds := by
  rw [natural, Nat.ofDigitChars_append, Nat.ofDigitChars_eq_ofDigitChars_zero]
  rfl

theorem natural_lt (digits : cs.all Char.isDigit = true) : natural cs < 10 ^ cs.length := by
  induction cs with
  | nil => decide
  | cons c cs ih =>
    simp only [List.all_cons, Bool.and_eq_true] at digits
    have digit : natural [c] ≤ 9 := by
      have := toNat_of_isDigit digits.1
      simp only [natural, Nat.ofDigitChars_cons, Nat.ofDigitChars_nil]
      change 10 * 0 + (c.toNat - 48) ≤ 9
      omega
    have rest := ih digits.2
    calc natural (c :: cs) = 10 ^ cs.length * natural [c] + natural cs := natural_append [c] cs
      _ < 10 ^ cs.length * natural [c] + 10 ^ cs.length := Nat.add_lt_add_left rest _
      _ = 10 ^ cs.length * (natural [c] + 1) := by ring
      _ ≤ 10 ^ cs.length * 10 := Nat.mul_le_mul_left _ (by omega)
      _ = 10 ^ (c :: cs).length := by rw [List.length_cons, Nat.pow_succ]

end Digits

theorem nearest_eq {cs : List Char} (digits : cs.all Char.isDigit = true) (exponent : Int) :
    nearest cs exponent = Decimal.nearest ⟨natural cs, exponent⟩ := by
  by_cases zero : natural cs = 0
  · simp only [nearest, zero, if_true, Decimal.nearest_zero]
  by_cases large : 400 < exponent
  · simp only [nearest, zero, large, if_true, if_false, Decimal.nearest_large zero large]
  by_cases small : cs.length + exponent < -400
  · simp only [nearest, zero, large, small, if_true, if_false,
      Decimal.nearest_small (natural_lt digits) small]
  · simp only [nearest, zero, large, small, if_false]

theorem digits_places (cs : List Char) : (places cs).1.all Char.isDigit = true := by
  unfold places
  split
  · exact List.all_takeWhile
  · rfl

theorem magnitude?_places (cs : List Char) : magnitude? cs =
    if cs.takeWhile Char.isDigit ++ (places (cs.dropWhile Char.isDigit)).1 = [] then none
    else (exponent? (places (cs.dropWhile Char.isDigit)).2).map fun e =>
      nearest (cs.takeWhile Char.isDigit ++ (places (cs.dropWhile Char.isDigit)).1)
        (e - (places (cs.dropWhile Char.isDigit)).1.length) := by
  unfold magnitude? places
  rcases cs.dropWhile Char.isDigit with _ | ⟨c, after⟩
  · rfl
  by_cases point : c = '.'
  · subst point
    rfl
  · simp [point]

/-- Reading a numeral rounds the decimal that it spells. -/
theorem magnitude?_eq (cs : List Char) : magnitude? cs = (decimal? cs).map Decimal.nearest := by
  have digits : (cs.takeWhile Char.isDigit ++
      (places (cs.dropWhile Char.isDigit)).1).all Char.isDigit = true := by
    rw [List.all_append, List.all_takeWhile, digits_places, Bool.and_self]
  rw [magnitude?_places]
  simp only [decimal?, nearest_eq digits]
  split
  · rfl
  · rw [Option.map_map]
    rfl

section Spelling

variable {whole fraction rest : List Char} (digits : whole.all Char.isDigit = true)
include digits

theorem decimal?_whole (some : whole ≠ []) (ends : ∀ c ∈ rest.head?, c.isDigit = false ∧ c ≠ '.')
    (exponent : exponent? rest = .some e) : decimal? (whole ++ rest) = .some ⟨natural whole, e⟩ := by
  obtain ⟨front, back⟩ := span_of_ends digits rest fun c first => (ends c first).1
  have none : places rest = ([], rest) := by
    unfold places
    split
    · exact absurd rfl (ends '.' rfl).2
    · rfl
  simp [decimal?, front, back, none, some, exponent]

theorem decimal?_point (digits' : fraction.all Char.isDigit = true) (some : whole ++ fraction ≠ [])
    (ends : ∀ c ∈ rest.head?, c.isDigit = false) (exponent : exponent? rest = .some e) :
    decimal? (whole ++ '.' :: (fraction ++ rest)) =
      .some ⟨natural (whole ++ fraction), e - fraction.length⟩ := by
  obtain ⟨front, back⟩ := span_of_ends digits ('.' :: (fraction ++ rest)) (by rintro _ ⟨⟩; rfl)
  obtain ⟨front', back'⟩ := span_of_ends digits' rest ends
  unfold decimal?
  simp only [places, front, back, front', back', some, exponent, if_false, Option.map_some]

/-- A numeral of digits alone. -/
theorem decimal?_digits (some : whole ≠ []) : decimal? whole = .some ⟨natural whole, 0⟩ := by
  have read : decimal? (whole ++ []) = _ := decimal?_whole digits some nofun rfl
  rwa [List.append_nil] at read

/-- A numeral of digits and a point among them. -/
theorem decimal?_fraction (digits' : fraction.all Char.isDigit = true)
    (some : whole ++ fraction ≠ []) : decimal? (whole ++ '.' :: fraction) =
      .some ⟨natural (whole ++ fraction), -fraction.length⟩ := by
  have read : decimal? (whole ++ '.' :: (fraction ++ [])) = _ :=
    decimal?_point digits digits' some nofun rfl
  rwa [List.append_nil, Int.zero_sub] at read

end Spelling

end Scriptlet.Numeral
