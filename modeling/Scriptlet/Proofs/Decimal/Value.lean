import Mathlib.Tactic.FieldSimp
import Mathlib.Data.Rat.Lemmas
import Scriptlet.Decimal.Shortest
import Scriptlet.Proofs.Decimal.Rounding

/-! What a decimal is worth. Rounding depends on that only, and the shortest decimal of a magnitude
rounds back to it. -/
namespace Scriptlet.Decimal

def value (d : Decimal) : ℚ := d.coefficient * 10 ^ d.exponent

theorem fraction_pos (d : Decimal) : 0 < d.fraction.2 := by
  unfold fraction
  split
  · exact Nat.one_pos
  · exact Nat.pow_pos (by decide)

theorem value_eq_fraction (d : Decimal) : d.value = d.fraction.1 / d.fraction.2 := by
  obtain ⟨coefficient, exponent⟩ := d
  unfold value fraction
  split
  next natural =>
    obtain ⟨k, rfl⟩ := Int.eq_ofNat_of_zero_le natural
    simp
  next negative =>
    obtain ⟨k, rfl⟩ : ∃ k : Nat, exponent = -k := ⟨(-exponent).toNat, by simp only at negative; omega⟩
    simp [div_eq_mul_inv]

/-- Rounding a decimal depends on its value only. -/
theorem nearest_of_value_eq {d d' : Decimal} (same : d.value = d'.value) : d.nearest = d'.nearest := by
  rw [value_eq_fraction, value_eq_fraction, div_eq_div_iff, ← Nat.cast_mul, ← Nat.cast_mul,
    Nat.cast_inj] at same
  · exact Binary64.nearest_congr d.fraction_pos d'.fraction_pos same
  · exact Nat.cast_ne_zero.mpr d.fraction_pos.ne'
  · exact Nat.cast_ne_zero.mpr d'.fraction_pos.ne'

theorem nearest_zero (exponent : Int) : nearest ⟨0, exponent⟩ = 0 := by
  have none : fraction ⟨0, exponent⟩ = (0, (fraction ⟨0, exponent⟩).2) := by
    unfold fraction
    split <;> simp
  rw [nearest, none]
  exact Binary64.nearest_zero (fraction_pos _)

theorem fraction_natural (n k : Nat) : fraction ⟨n, k⟩ = (n * Nat.pow 10 k, 1) :=
  if_pos (Int.natCast_nonneg k)

theorem fraction_negative (n : Nat) {k : Nat} (pos : 0 < k) :
    fraction ⟨n, -(k : Int)⟩ = (n, Nat.pow 10 k) := by
  unfold fraction
  rw [if_neg (by simp only; omega)]
  simp

/-- Larger powers of ten are beyond the range of doubles, and their inverses are below it. -/
theorem range_le_power :
    Nat.pow 2 1024 ≤ Nat.pow 10 401 ∧ 2 * Binary64.unitsPerOne ≤ Nat.pow 10 401 := by
  decide +kernel

theorem nearest_large {e : Int} (some : n ≠ 0) (large : 400 < e) :
    nearest ⟨n, e⟩ = Binary64.infinite := by
  obtain ⟨k, rfl⟩ := Int.eq_ofNat_of_zero_le (Int.le_trans (by decide) (Int.le_of_lt large))
  rw [nearest, fraction_natural]
  refine Binary64.nearest_overflow Nat.one_pos ?_
  calc 1 * Nat.pow 2 1024 ≤ 1 * Nat.pow 10 401 := Nat.mul_le_mul_left 1 range_le_power.1
    _ ≤ n * Nat.pow 10 k := Nat.mul_le_mul (Nat.one_le_iff_ne_zero.mpr some)
        (Nat.pow_le_pow_right (by decide) (by omega))

theorem nearest_small {n k : Nat} {e : Int} (bound : n < Nat.pow 10 k) (small : k + e < -400) :
    nearest ⟨n, e⟩ = 0 := by
  obtain ⟨j, rfl⟩ : ∃ j : Nat, e = -j := ⟨(-e).toNat, by omega⟩
  rw [nearest, fraction_negative n (by omega)]
  refine Binary64.nearest_underflow ?_
  calc 2 * (n * Binary64.unitsPerOne) = n * (2 * Binary64.unitsPerOne) := by ring
    _ ≤ n * Nat.pow 10 401 := Nat.mul_le_mul_left n range_le_power.2
    _ < Nat.pow 10 k * Nat.pow 10 401 :=
        Nat.mul_lt_mul_of_pos_right bound (Nat.pow_pos (by decide))
    _ = Nat.pow 10 (k + 401) := (Nat.pow_add 10 k 401).symm
    _ ≤ Nat.pow 10 j := Nat.pow_le_pow_right (by decide) (by omega)

/-- A power of two in the denominator is one of ten, with as many fives in the numerator. -/
theorem nearest_fives (n k : Nat) :
    nearest ⟨n * Nat.pow 5 k, -k⟩ = Binary64.nearest n (Nat.pow 2 k) := by
  refine Binary64.nearest_congr (fraction_pos _) (Binary64.size_pos k) ?_
  have tens : Nat.pow 10 k = Nat.pow 5 k * Nat.pow 2 k := Nat.mul_pow 5 2 k
  unfold fraction
  split
  next natural =>
    obtain rfl : k = 0 := by simp only at natural; omega
    simp
  · simp only [neg_neg, Int.toNat_natCast, tens]
    ring

/-- A finite magnitude is a decimal that rounds to it. -/
theorem nearest_exact (finite : m < Binary64.infinite) : (exact m).nearest = m :=
  (nearest_fives (Binary64.units m) 1074).trans (Binary64.nearest_units finite)

theorem nearest_of_refine {first : Int} (found : refine m n d k first = some r) :
    r.nearest = m := by
  induction k generalizing first with
  | zero => cases found
  | succ k ih =>
    unfold refine at found
    split at found
    next r' first =>
      cases found
      simpa using List.find?_some first
    next => exact ih found

theorem nearest_getD {found : Option Decimal} (each : ∀ r, found = some r → r.nearest = m)
    (fallback : d.nearest = m) : (found.getD d).nearest = m := by
  cases found with
  | none => exact fallback
  | some r => exact each r rfl

/-- The shortest decimal of a finite magnitude rounds back to it. -/
theorem nearest_shortest (finite : m < Binary64.infinite) : (shortest m).nearest = m := by
  rw [shortest]
  refine nearest_getD ?_ (nearest_exact finite)
  intro r found
  exact nearest_of_refine found

end Scriptlet.Decimal
