import Scriptlet.Decimal.Written
import Scriptlet.Proofs.Decimal.Numeral
import Scriptlet.Proofs.Token.Numeral

/-! Both written forms of a decimal spell its value. The positional one is a number of the kind that
stands in a script. -/
namespace Scriptlet.Decimal

open Numeral (decimal? exponent? natural plain plain_of_digits plain_of_isNumber)

section Digits

variable {d : Decimal}

theorem all_toDigits (n : Nat) : (Nat.toDigits 10 n).all Char.isDigit = true :=
  List.all_eq_true.mpr fun _ mem => Nat.isDigit_of_mem_toDigits (by decide) (by decide) mem

theorem all_zeros (k : Nat) : (List.replicate k '0').all Char.isDigit = true := by
  simp only [List.all_replicate]
  split <;> rfl

theorem all_digits (d : Decimal) : d.digits.all Char.isDigit = true := all_toDigits d.coefficient

theorem digits_ne_nil (d : Decimal) : d.digits ≠ [] := Nat.toDigits_ne_nil

theorem natural_digits (d : Decimal) : natural d.digits = d.coefficient :=
  Nat.ofDigitChars_ten_toDigits

theorem natural_padded (k n : Nat) :
    natural (List.replicate k '0' ++ Nat.toDigits 10 n) = n := by
  rw [natural, Nat.ofDigitChars_append, Nat.ofDigitChars_replicate_zero, Nat.mul_zero]
  exact Nat.ofDigitChars_ten_toDigits

theorem natural_append_zeros (cs : List Char) (k : Nat) :
    natural (cs ++ List.replicate k '0') = 10 ^ k * natural cs := by
  rw [natural, Nat.ofDigitChars_append, Nat.ofDigitChars_replicate_zero]
  rfl

end Digits

/-- The text is a numeral of this value. -/
def Spells (cs : List Char) (value : ℚ) : Prop := ∃ d, decimal? cs = some d ∧ d.value = value

/-- Reading a numeral depends on its value only. -/
theorem Spells.magnitude? {cs : List Char} {d : Decimal} (spelt : Spells cs d.value) :
    Numeral.magnitude? cs = some d.nearest := by
  obtain ⟨d', read, same⟩ := spelt
  rw [Numeral.magnitude?_eq, read, Option.map_some, nearest_of_value_eq same]

section Positional

variable {d : Decimal}

theorem positional_natural (natural : 0 ≤ d.exponent) :
    d.positional = d.digits ++ List.replicate d.exponent.toNat '0' := if_pos natural

/-- With a fraction there are digits on both sides of the point, and all are those of the
coefficient but for zeros in front. -/
theorem positional_fraction (negative : d.exponent < 0) : ∃ whole fraction,
    d.positional = whole ++ '.' :: fraction ∧ whole ≠ [] ∧
      (whole ++ fraction).all Char.isDigit = true ∧ natural (whole ++ fraction) = d.coefficient ∧
      (fraction.length : Int) = -d.exponent := by
  have long : (-d.exponent).toNat + 1 ≤
      (List.replicate ((-d.exponent).toNat + 1 - d.digits.length) '0' ++ d.digits).length := by
    rw [List.length_append, List.length_replicate]
    omega
  have own : (List.replicate ((-d.exponent).toNat + 1 - d.digits.length) '0' ++
      d.digits).all Char.isDigit = true := by
    rw [List.all_append, all_zeros, all_digits, Bool.and_self]
  have spelt : natural (List.replicate ((-d.exponent).toNat + 1 - d.digits.length) '0' ++
      d.digits) = d.coefficient := natural_padded _ d.coefficient
  simp only [positional, if_neg (Int.not_le.mpr negative)]
  generalize List.replicate ((-d.exponent).toNat + 1 - d.digits.length) '0' ++ d.digits = padded at *
  refine ⟨_, _, rfl, ?_, ?_, ?_, ?_⟩
  · rw [ne_eq, List.take_eq_nil_iff]
    rintro (none | rfl)
    · omega
    · simp at long
  · rwa [List.take_append_drop]
  · rwa [List.take_append_drop]
  · rw [List.length_drop]
    omega

theorem positional_isNumber (d : Decimal) :
    ∃ first others, d.positional = first :: others ∧ IsNumber first others := by
  rcases Int.lt_or_le d.exponent 0 with negative | natural
  · obtain ⟨whole, fraction, split, some, digits, _⟩ := positional_fraction negative
    obtain ⟨first, whole, rfl⟩ := List.exists_cons_of_ne_nil some
    simp only [List.cons_append, List.all_cons, List.all_append, Bool.and_eq_true] at digits
    obtain ⟨digit, own, own'⟩ := digits
    exact ⟨first, _, split, digit, whole, own, .inr ⟨fraction, own', rfl⟩⟩
  · obtain ⟨first, others, split⟩ := List.exists_cons_of_ne_nil d.digits_ne_nil
    have own := d.all_digits
    rw [split, List.all_cons, Bool.and_eq_true] at own
    refine ⟨first, others ++ List.replicate d.exponent.toNat '0', ?_, own.1, _, ?_, .inl rfl⟩
    · rw [positional_natural natural, split, List.cons_append]
    · rw [List.all_append, own.2, all_zeros, Bool.and_self]

theorem value_natural (natural : 0 ≤ d.exponent) :
    (⟨10 ^ d.exponent.toNat * d.coefficient, 0⟩ : Decimal).value = d.value := by
  obtain ⟨n, e⟩ := d
  obtain ⟨k, rfl⟩ := Int.eq_ofNat_of_zero_le natural
  simp [value, mul_comm]

/-- Where it shows a fraction, the positional form spells the decimal itself. -/
theorem decimal?_positional (negative : d.exponent < 0) : decimal? d.positional = some d := by
  obtain ⟨whole, fraction, split, filled, digits, spelt, length⟩ := positional_fraction negative
  rw [List.all_append, Bool.and_eq_true] at digits
  have read := Numeral.decimal?_fraction digits.1 digits.2 (by simp [filled])
  rw [spelt, length, neg_neg] at read
  exact split ▸ read

theorem all_padded (d : Decimal) (k : Nat) :
    (d.digits ++ List.replicate k '0').all Char.isDigit = true := by
  rw [List.all_append, all_digits, all_zeros, Bool.and_self]

theorem positional_spells (d : Decimal) : Spells d.positional d.value := by
  rcases Int.lt_or_le d.exponent 0 with negative | whole
  · exact ⟨d, decimal?_positional negative, rfl⟩
  · have read := Numeral.decimal?_digits (d.all_padded d.exponent.toNat) (by simp [d.digits_ne_nil])
    rw [natural_append_zeros, natural_digits] at read
    exact ⟨_, positional_natural whole ▸ read, value_natural whole⟩

end Positional

section General

variable {d : Decimal}

theorem exponent?_written (e : Int) : exponent? ('e' :: (if e < 0 then '-' else '+') ::
    (List.replicate (2 - (Nat.toDigits 10 e.natAbs).length) '0' ++ Nat.toDigits 10 e.natAbs)) =
      some e := by
  have digits : (List.replicate (2 - (Nat.toDigits 10 e.natAbs).length) '0' ++
      Nat.toDigits 10 e.natAbs).all Char.isDigit = true := by
    rw [List.all_append, all_zeros, all_toDigits, Bool.and_self]
  have spelt := natural_padded (2 - (Nat.toDigits 10 e.natAbs).length) e.natAbs
  have some : List.replicate (2 - (Nat.toDigits 10 e.natAbs).length) '0' ++
      Nat.toDigits 10 e.natAbs ≠ [] := by simp
  generalize List.replicate (2 - (Nat.toDigits 10 e.natAbs).length) '0' ++
    Nat.toDigits 10 e.natAbs = written at *
  have size : (e.natAbs : Int) = if e < 0 then -e else e := by
    split <;> omega
  split at size
  next negative =>
    simp only [negative, exponent?, Numeral.sign, some, digits, spelt, size, Int.neg_neg, ne_eq,
      not_false_eq_true, and_self, true_or, if_true]
  next positive =>
    simp only [positive, exponent?, Numeral.sign, some, digits, spelt, size, ne_eq,
      not_false_eq_true, and_self, true_or, if_true, if_false, Bool.false_eq_true]

/-- The scientific form spells the decimal itself. -/
theorem decimal?_scientific (d : Decimal) : decimal? d.scientific = some d := by
  obtain ⟨first, others, split⟩ := List.exists_cons_of_ne_nil d.digits_ne_nil
  have own := d.all_digits
  have spelt := d.natural_digits
  have written := exponent?_written (d.exponent + (d.digits.length - 1 : Nat))
  rw [split, List.all_cons, Bool.and_eq_true] at own
  have single : [first].all Char.isDigit = true := by simp [own.1]
  simp only [scientific, split] at spelt written ⊢
  generalize (if d.exponent + ((first :: others).length - 1 : Nat) < 0 then '-' else '+') ::
    (List.replicate _ '0' ++ Nat.toDigits 10 _) = tail at written ⊢
  cases others with
  | nil =>
    have read := Numeral.decimal?_whole single (by simp) (by rintro _ ⟨⟩; decide) written
    rw [spelt] at read
    simpa using read
  | cons second others =>
    have read := Numeral.decimal?_point single own.2 (by simp) (by rintro _ ⟨⟩; rfl) written
    have same : natural ([first] ++ second :: others) = d.coefficient := spelt
    rw [same] at read
    simpa using read

/-- The general form spells the decimal itself, or has one more zero behind a point. -/
theorem decimal?_general (d : Decimal) : decimal? d.general = some d ∨ 0 ≤ d.exponent ∧
    decimal? d.general = some ⟨10 * (10 ^ d.exponent.toNat * d.coefficient), -1⟩ := by
  simp only [general]
  split
  · exact .inl (decimal?_scientific d)
  split
  next whole =>
    have read := Numeral.decimal?_fraction (d.all_padded d.exponent.toNat) (all_zeros 1)
      (by simp [d.digits_ne_nil])
    rw [natural_append_zeros, natural_append_zeros, natural_digits] at read
    exact .inr ⟨whole, positional_natural whole ▸ read⟩
  next fraction => exact .inl (decimal?_positional (Int.not_le.mp fraction))

theorem general_spells (d : Decimal) : Spells d.general d.value := by
  rcases d.decimal?_general with read | ⟨whole, read⟩
  · exact ⟨d, read, rfl⟩
  · refine ⟨_, read, ?_⟩
    rw [← value_natural whole]
    simp only [value, zpow_neg]
    push_cast
    ring

end General

section Starts

theorem positional_starts (d : Decimal) : ∃ first others, d.positional = first :: others ∧
    first.isDigit = true ∧ (first :: others).all plain = true := by
  obtain ⟨first, others, split, number⟩ := d.positional_isNumber
  exact ⟨first, others, split, number.1, plain_of_isNumber number⟩

theorem scientific_starts (d : Decimal) : ∃ first others, d.scientific = first :: others ∧
    first.isDigit = true ∧ (first :: others).all plain = true := by
  obtain ⟨first, others, split⟩ := List.exists_cons_of_ne_nil d.digits_ne_nil
  have own := d.all_digits
  rw [split, List.all_cons, Bool.and_eq_true] at own
  have front : plain first = true := by simp [plain, own.1]
  have back := plain_of_digits own.2
  have mark : ∀ e : Int, plain (if e < 0 then '-' else '+') = true := by
    intro e
    split <;> rfl
  have exponent : ∀ n : Nat, (List.replicate (2 - (Nat.toDigits 10 n).length) '0' ++
      Nat.toDigits 10 n).all plain = true := by
    intro n
    rw [List.all_append, plain_of_digits (all_zeros _), plain_of_digits (all_toDigits n), Bool.and_self]
  cases others with
  | nil =>
    simp only [scientific, split, List.cons_append, List.nil_append]
    refine ⟨first, _, rfl, own.1, ?_⟩
    simp only [List.all_cons, front, mark, exponent, Bool.true_and]
    rfl
  | cons second others =>
    simp only [List.all_cons, Bool.and_eq_true] at back
    simp only [scientific, split, List.cons_append]
    refine ⟨first, _, rfl, own.1, ?_⟩
    simp only [List.all_cons, List.all_append, front, back, mark, exponent, Bool.true_and]
    rfl

theorem general_starts (d : Decimal) : ∃ first others, d.general = first :: others ∧
    first.isDigit = true ∧ (first :: others).all plain = true := by
  obtain ⟨first, others, split, digit, simple⟩ := d.positional_starts
  simp only [general]
  split
  · exact d.scientific_starts
  split
  · refine ⟨first, others ++ ['.', '0'], by rw [split, List.cons_append], digit, ?_⟩
    rw [← List.cons_append, List.all_append, simple]
    rfl
  · exact ⟨first, others, split, digit, simple⟩

end Starts

end Scriptlet.Decimal
