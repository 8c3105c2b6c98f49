import Mathlib.Tactic.Ring
import Mathlib.Data.Nat.Log
import Scriptlet.Decimal.Binary64

/-! Rounding to a magnitude: it depends on the value of a fraction only, leaves what is a magnitude
already as it is, and settles what is out of range. -/
namespace Scriptlet.Binary64

theorem size_pos (e : Nat) : 0 < Nat.pow 2 e := Nat.two_pow_pos e

theorem unitsPerOne_pos : 0 < unitsPerOne := by
  rw [unitsPerOne]
  generalize 1074 = e
  exact size_pos e

theorem pow_split (a b : Nat) : Nat.pow 2 (a + b) = Nat.pow 2 a * Nat.pow 2 b := Nat.pow_add 2 a b

theorem binade_pos : 0 < binade := size_pos 52

/-- Rounding does not depend on how a fraction is written. -/
theorem nearest_mul (n d : Nat) (pos : 0 < k) : nearest (n * k) (d * k) = nearest n d := by
  have scaled : n * k * unitsPerOne = n * unitsPerOne * k := by ring
  have steps : ∀ e, d * k * Nat.pow 2 e = d * Nat.pow 2 e * k := fun e => by ring
  have twice : ∀ a, 2 * (a * k) = 2 * a * k := fun a => by ring
  have same : ∀ a b : Nat, (a * k == b * k) = (a == b) := by
    intro a b
    rw [Bool.eq_iff_iff, beq_iff_eq, beq_iff_eq, Nat.mul_left_inj pos.ne']
  simp only [nearest, scaled, steps, Nat.mul_div_mul_right _ _ pos, Nat.mul_mod_mul_right, twice,
    same, Nat.mul_lt_mul_right pos]

theorem nearest_congr (pos : 0 < d) (pos' : 0 < d') (same : n * d' = n' * d) :
    nearest n d = nearest n' d' := by
  rw [← nearest_mul n d pos', same, Nat.mul_comm d d', nearest_mul n' d' pos]

/-- How far the bits of a number reach beyond those of a significand. -/
def excess (steps : Nat) : Nat := steps.log2 - 52

/-- A whole number of smallest steps that has few enough bits is not rounded. -/
theorem nearest_whole (pos : 0 < d) (whole : n * unitsPerOne = steps * d)
    (few : Nat.pow 2 (excess steps) ∣ steps) : nearest n d =
      min (excess steps * binade + steps / Nat.pow 2 (excess steps)) infinite := by
  obtain ⟨significand, split⟩ := few
  have size := size_pos (excess steps)
  have exponent : (n * unitsPerOne / d).log2 - 52 = excess steps := by
    rw [whole, Nat.mul_div_cancel _ pos]
    rfl
  have scaled : n * unitsPerOne = significand * (d * Nat.pow 2 (excess steps)) := by
    rw [whole]
    nth_rewrite 1 [split]
    ring
  have quotient : steps / Nat.pow 2 (excess steps) = significand := by
    nth_rewrite 1 [split]
    exact Nat.mul_div_cancel_left _ size
  simp only [nearest, exponent, quotient]
  rw [scaled, Nat.mul_div_cancel _ (Nat.mul_pos pos size), Nat.mul_mod_left]
  simp [pos.ne']

theorem log2_of_bounds (lower : Nat.pow 2 e ≤ n) (upper : n < Nat.pow 2 (e + 1)) : n.log2 = e :=
  (Nat.log2_eq_iff (Nat.lt_of_lt_of_le (size_pos e) lower).ne').mpr ⟨lower, upper⟩

theorem excess_small (small : n < binade) : excess n = 0 := by
  rcases Nat.eq_zero_or_pos n with rfl | pos
  · decide
  · have bits : n.log2 < 52 := (Nat.log2_lt pos.ne').mpr small
    rw [excess]
    omega

theorem excess_large (within : r < binade) (e : Nat) : excess ((binade + r) * Nat.pow 2 e) = e := by
  have whole : Nat.pow 2 (52 + e) = binade * Nat.pow 2 e := pow_split 52 e
  have twice : Nat.pow 2 (52 + e + 1) = (binade + binade) * Nat.pow 2 e := by
    rw [show Nat.pow 2 (52 + e + 1) = Nat.pow 2 (52 + e) * 2 from rfl, whole]
    ring
  have bits : ((binade + r) * Nat.pow 2 e).log2 = 52 + e := by
    apply log2_of_bounds
    · rw [whole]
      exact Nat.mul_le_mul_right _ (Nat.le_add_right binade r)
    · rw [twice]
      exact Nat.mul_lt_mul_of_pos_right (Nat.add_lt_add_left within binade) (size_pos e)
  rw [excess, bits]
  omega

/-- The smallest steps in a magnitude make up its significand, which its exponent moves. -/
theorem units_spec (m : Nat) : Nat.pow 2 (excess (units m)) ∣ units m ∧
    excess (units m) * binade + units m / Nat.pow 2 (excess (units m)) = m := by
  unfold units
  split
  next small =>
    rw [excess_small small]
    simp
  next large =>
    have first : 1 ≤ m / binade := (Nat.one_le_div_iff binade_pos).mpr (Nat.le_of_not_lt large)
    have split := Nat.div_add_mod m binade
    have within := Nat.mod_lt m binade_pos
    generalize m / binade = q at first split
    generalize m % binade = r at split within
    obtain ⟨e, rfl⟩ : ∃ e, q = e + 1 := ⟨q - 1, by omega⟩
    rw [Nat.add_sub_cancel, excess_large within]
    refine ⟨Nat.dvd_mul_left _ _, ?_⟩
    rw [Nat.mul_div_left _ (size_pos e), ← split]
    ring

/-- A finite magnitude is the one nearest to itself. -/
theorem nearest_units (finite : m < infinite) : nearest (units m) unitsPerOne = m := by
  obtain ⟨few, whole⟩ := units_spec m
  rw [nearest_whole unitsPerOne_pos rfl few, whole]
  exact Nat.min_eq_left (Nat.le_of_lt finite)

/-- Less than half of the smallest step is nothing. -/
theorem nearest_underflow (small : 2 * (n * unitsPerOne) < d) : nearest n d = 0 := by
  have none : n * unitsPerOne / d = 0 := Nat.div_eq_of_lt (by omega)
  have rest : n * unitsPerOne % d = n * unitsPerOne := Nat.mod_eq_of_lt (by omega)
  simp only [nearest, none]
  rw [show Nat.log2 0 - 52 = 0 from rfl, show d * Nat.pow 2 0 = d from Nat.mul_one d, none, rest]
  have up : (decide (d < 2 * (n * unitsPerOne)) ||
      (2 * (n * unitsPerOne) == d && 0 % 2 == 1)) = false := by
    rw [Bool.or_eq_false_iff]
    exact ⟨decide_eq_false (Nat.lt_asymm small), by simp⟩
  rw [up]
  simp

theorem nearest_zero (pos : 0 < d) : nearest 0 d = 0 := by
  refine nearest_underflow ?_
  rwa [Nat.zero_mul, Nat.mul_zero]

/-- Beyond the range of magnitudes everything is infinite. -/
theorem nearest_overflow (pos : 0 < d) (large : d * Nat.pow 2 1024 ≤ n) : nearest n d = infinite := by
  have steps : Nat.pow 2 (1024 + 1074) ≤ n * unitsPerOne / d := by
    rw [Nat.le_div_iff_mul_le pos]
    calc Nat.pow 2 (1024 + 1074) * d
        = d * Nat.pow 2 1024 * unitsPerOne := by
          rw [pow_split, unitsPerOne]
          generalize Nat.pow 2 1024 = a
          generalize Nat.pow 2 1074 = b
          ring
      _ ≤ n * unitsPerOne := Nat.mul_le_mul_right _ large
  have some : n * unitsPerOne / d ≠ 0 := (Nat.lt_of_lt_of_le (size_pos _) steps).ne'
  have bits : 1024 + 1074 ≤ (n * unitsPerOne / d).log2 := (Nat.le_log2 some).mpr steps
  obtain ⟨e, exponent⟩ : ∃ e, (n * unitsPerOne / d).log2 = 52 + e :=
    ⟨(n * unitsPerOne / d).log2 - 52, by omega⟩
  have significand : binade ≤ n * unitsPerOne / (d * Nat.pow 2 e) := by
    rw [← Nat.div_div_eq_div_mul, Nat.le_div_iff_mul_le (size_pos e)]
    have least := Nat.log2_self_le some
    rw [exponent] at least
    rwa [show binade * Nat.pow 2 e = 2 ^ (52 + e) from (pow_split 52 e).symm]
  have found : (n * unitsPerOne / d).log2 - 52 = e := by omega
  simp only [nearest, found]
  refine Nat.min_eq_right (Nat.le_trans ?_ (Nat.le_add_right _ _))
  calc infinite = 2046 * binade + binade := by
        rw [infinite]
        ring
    _ ≤ e * binade + n * unitsPerOne / (d * Nat.pow 2 e) :=
        Nat.add_le_add (Nat.mul_le_mul_right _ (by omega)) significand

end Scriptlet.Binary64
