import Scriptlet.Proofs.Decimal.Written

/-! The last digit of a shortest decimal. It is no zero, as the decimal without it would have been
found at the place before; so a zero behind the point of a general form stands there for itself, and
dropping it leaves the positional form. -/
namespace Scriptlet.Decimal

section Neighbours

variable {n d : Nat} {e : Int} {b : Decimal}

/-- How often a power of ten goes into `n / d`. -/
def below (n d : Nat) (e : Int) : Nat := n * Nat.pow 10 (-e).toNat / (d * Nat.pow 10 e.toNat)

theorem mem_neighbours (mem : b ∈ neighbours n d e) :
    b = ⟨below n d e, e⟩ ∨ b = ⟨below n d e + 1, e⟩ := by
  unfold neighbours at mem
  dsimp only at mem
  split at mem
  · simpa [below, or_comm] using mem
  · simpa [below] using mem

theorem neighbours_of_eq (own : b = ⟨below n d e, e⟩ ∨ b = ⟨below n d e + 1, e⟩) :
    b ∈ neighbours n d e := by
  unfold neighbours
  dsimp only
  split
  · simpa [below, or_comm] using own
  · simpa [below] using own

theorem below_succ (n d : Nat) (e : Int) : below n d (e + 1) = below n d e / 10 := by
  unfold below
  rcases Int.lt_or_le e 0 with negative | natural
  · obtain ⟨k, rfl⟩ : ∃ k : Nat, e = -(k + 1) := ⟨(-e - 1).toNat, by omega⟩
    have finer : (-(-((k : Int) + 1))).toNat = k + 1 := by omega
    have coarser : (-(-((k : Int) + 1) + 1)).toNat = k := by omega
    have none : (-((k : Int) + 1)).toNat = 0 ∧ (-((k : Int) + 1) + 1).toNat = 0 := by omega
    rw [finer, coarser, none.1, none.2, Nat.div_div_eq_div_mul]
    have tens : n * Nat.pow 10 (k + 1) = n * Nat.pow 10 k * 10 := (Nat.mul_assoc _ _ _).symm
    rw [tens, Nat.mul_div_mul_right _ _ (by decide)]
  · obtain ⟨k, rfl⟩ := Int.eq_ofNat_of_zero_le natural
    have none : (-(k : Int)).toNat = 0 ∧ (-((k : Int) + 1)).toNat = 0 := by omega
    have finer : ((k : Int) + 1).toNat = k + 1 := by omega
    rw [none.1, none.2, finer, Int.toNat_natCast, Nat.div_div_eq_div_mul]
    exact congrArg (n * Nat.pow 10 0 / ·) (Nat.mul_assoc d (Nat.pow 10 k) 10).symm

theorem trim_of_zero (zero : b.coefficient % 10 = 0) : b.trim = ⟨b.coefficient / 10, b.exponent + 1⟩ :=
  if_pos zero

theorem trim_of_digit (digit : b.coefficient % 10 ≠ 0) : b.trim = b := if_neg digit

/-- Without a zero at its end, a decimal is one of those a place before. -/
theorem trim_mem_neighbours (mem : b ∈ neighbours n d e) (zero : b.coefficient % 10 = 0) :
    b.trim ∈ neighbours n d (e + 1) := by
  rw [trim_of_zero zero]
  apply neighbours_of_eq
  rw [below_succ]
  rcases mem_neighbours mem with rfl | rfl
  · exact .inl rfl
  · refine .inr (congrArg (mk · (e + 1)) ?_)
    simp only at zero ⊢
    omega

/-- A number has no more digits than its size asks for. -/
theorem power_le_of_digits (pos : 0 < k) : Nat.pow 10 ((Nat.toDigits 10 k).length - 1) ≤ k := by
  refine Nat.le_of_not_lt fun small => ?_
  rcases Nat.eq_zero_or_pos ((Nat.toDigits 10 k).length - 1) with single | some
  · rw [single] at small
    exact absurd small (Nat.not_lt.mpr pos)
  · have short := (Nat.length_toDigits_le_iff (by decide) some).mpr small
    omega

/-- Ten of the power at the place before the first digit exceed the fraction. -/
theorem below_leading (pos : 0 < n) (pos' : 0 < d) : below n d (leading n d + 1) = 0 := by
  unfold below leading
  split
  next large =>
    have written : (Nat.toDigits 10 (n / d)).length ≤ (Nat.toDigits 10 (n / d)).length := Nat.le_refl _
    rw [Nat.length_toDigits_le_iff (by decide) Nat.length_toDigits_pos] at written
    generalize (Nat.toDigits 10 (n / d)).length = k at written
    have none : (-((k : Int) - 1 + 1)).toNat = 0 ∧ ((k : Int) - 1 + 1).toNat = k := by omega
    rw [none.1, none.2, ← Nat.div_div_eq_div_mul]
    exact Nat.div_eq_of_lt (by simpa using written)
  next small =>
    have some : 1 ≤ (d - 1) / n := (Nat.one_le_div_iff pos).mpr (by omega)
    split
    next none => omega
    next k _ =>
      have least := power_le_of_digits some
      have digits : 0 < (Nat.toDigits 10 ((d - 1) / n)).length := Nat.length_toDigits_pos
      obtain ⟨k, length⟩ : ∃ k, (Nat.toDigits 10 ((d - 1) / n)).length = k + 1 :=
        ⟨_, (Nat.sub_add_cancel digits).symm⟩
      have none : (-(-((k + 1 : Nat) : Int) + 1)).toNat = k ∧
          (-((k + 1 : Nat) : Int) + 1).toNat = 0 := by
        omega
      rw [length, Nat.add_sub_cancel, Nat.le_div_iff_mul_le pos] at least
      rw [length, none.1, none.2]
      refine Nat.div_eq_of_lt ?_
      calc n * Nat.pow 10 k = Nat.pow 10 k * n := Nat.mul_comm _ _
        _ < d := by omega
        _ = d * Nat.pow 10 0 := (Nat.mul_one d).symm

end Neighbours

section Shortest

variable {n d : Nat}

theorem value_trim (b : Decimal) : b.trim.value = b.value := by
  unfold trim
  split
  next zero =>
    have tens : (b.coefficient : ℚ) = (b.coefficient / 10 : Nat) * 10 := by
      exact_mod_cast (Nat.div_mul_cancel (Nat.dvd_of_mod_eq_zero zero)).symm
    simp only [value]
    rw [tens, zpow_add_one₀ (by norm_num)]
    ring
  · rfl

theorem nearest_trim (b : Decimal) : b.trim.nearest = b.nearest := nearest_of_value_eq b.value_trim

/-- What is found at some place was not to be had at the place before, where it would have been with a
zero at its end. -/
theorem significant_of_refine {first : Int}
    (before : ∀ b ∈ neighbours n d (first + 1), b.nearest = m → b.coefficient % 10 ≠ 0)
    (found : refine m n d k first = some r) : r.coefficient % 10 ≠ 0 := by
  induction k generalizing first with
  | zero => cases found
  | succ k ih =>
    unfold refine at found
    split at found
    next r hit =>
      cases found
      have rounds : r.nearest = m := by simpa using List.find?_some hit
      obtain ⟨b, mem, rfl⟩ := List.mem_map.mp (List.mem_of_find?_eq_some hit)
      by_cases zero : b.coefficient % 10 = 0
      · exact before _ (trim_mem_neighbours mem zero) rounds
      · rwa [trim_of_digit zero]
    next none =>
      refine ih ?_ found
      intro b mem rounds
      rw [Int.sub_add_cancel] at mem
      have other := List.find?_eq_none.mp none _ (List.mem_map_of_mem mem)
      simp [nearest_trim, rounds] at other

theorem units_pos (some : m ≠ 0) (finite : m < Binary64.infinite) : 0 < Binary64.units m := by
  refine Nat.pos_of_ne_zero fun none => some ?_
  rw [← Binary64.nearest_units finite, none]
  exact Binary64.nearest_zero Binary64.unitsPerOne_pos

/-- No zero stands at the end of a decimal that was found by its digits. -/
theorem significant_shortest (some : m ≠ 0) (finite : m < Binary64.infinite) :
    (shortest m).coefficient % 10 ≠ 0 ∨ shortest m = exact m := by
  rw [shortest]
  cases found : refine m (Binary64.units m) Binary64.unitsPerOne 17
      (leading (Binary64.units m) Binary64.unitsPerOne) with
  | none => exact .inr rfl
  | some r =>
    refine .inl (significant_of_refine ?_ found)
    intro b mem rounds
    have least := below_leading (units_pos some finite) Binary64.unitsPerOne_pos
    rcases mem_neighbours mem with rfl | rfl <;> rw [least] at rounds ⊢
    · exact absurd ((nearest_zero _).symm.trans rounds).symm some
    · exact Nat.one_ne_zero

/-- Nor does one stand at the end of tenths. -/
theorem tenth_shortest (some : m ≠ 0) (finite : m < Binary64.infinite)
    (tenths : (shortest m).exponent = -1) : (shortest m).coefficient % 10 ≠ 0 := by
  rcases significant_shortest some finite with digit | whole
  · exact digit
  · rw [whole] at tenths
    exact absurd tenths (show (-1074 : Int) ≠ -1 by decide)

theorem shortest_ne_zero (some : m ≠ 0) (finite : m < Binary64.infinite) :
    (shortest m).coefficient ≠ 0 := by
  intro zero
  have rounds := nearest_shortest finite
  generalize shortest m = d at rounds zero
  obtain ⟨n, e⟩ := d
  obtain rfl : n = 0 := zero
  exact some (rounds.symm.trans (nearest_zero e))

end Shortest

/-- Drops a point with a single zero behind it from the end of a text. -/
def withoutZero (cs : List Char) : List Char :=
  if ['.', '0'] <:+ cs then cs.take (cs.length - 2) else cs

theorem withoutZero_append (cs : List Char) : withoutZero (cs ++ ['.', '0']) = cs := by
  rw [withoutZero, if_pos (List.suffix_append cs _)]
  simp

section Positional

variable {d : Decimal}

theorem point_notMem {cs : List Char} (digits : cs.all Char.isDigit = true) : '.' ∉ cs := by
  intro mem
  exact absurd (List.all_eq_true.mp digits _ mem) (by decide)

/-- Where a point stands among digits, a text that ends in another point ends as the digits do. -/
theorem fraction_of_suffix {whole fraction : List Char}
    (digits : (whole ++ fraction).all Char.isDigit = true) (ends : ['.', '0'] <:+ whole ++ '.' :: fraction) : fraction = ['0'] := by
  rw [List.all_append, Bool.and_eq_true] at digits
  obtain ⟨cs, same⟩ := ends
  rcases List.append_eq_append_iff.mp same with ⟨more, left, right⟩ | ⟨more, left, right⟩
  · rcases more with _ | ⟨c, more⟩
    · exact (List.cons.inj right).2.symm
    · obtain ⟨rfl, _⟩ := List.cons.inj right
      exact absurd (by simp [left]) (point_notMem digits.1)
  · rcases more with _ | ⟨c, more⟩
    · exact (List.cons.inj right).2
    · obtain ⟨_, rfl⟩ := List.cons.inj right
      exact absurd (by simp) (point_notMem digits.2)

/-- Nothing is dropped from a positional form whose last place is no zero. -/
theorem withoutZero_positional (own : d.exponent = -1 → d.coefficient % 10 ≠ 0) :
    withoutZero d.positional = d.positional := by
  refine if_neg fun ends => ?_
  rcases Int.lt_or_le d.exponent 0 with negative | whole
  · obtain ⟨whole, fraction, split, _, digits, spelt, length⟩ := positional_fraction negative
    rw [split] at ends
    obtain rfl := fraction_of_suffix digits ends
    refine own (by simpa [eq_comm, neg_eq_iff_eq_neg] using length) ?_
    rw [← spelt, Numeral.natural_append]
    exact Nat.mul_add_mod_self_left 10 _ 0
  · rw [positional_natural whole] at ends
    have digits : (d.digits ++ List.replicate d.exponent.toNat '0').all Char.isDigit = true := by
      rw [List.all_append, all_digits, all_zeros, Bool.and_self]
    exact point_notMem digits (ends.mem (by simp))

theorem toDigits_ten (pos : 0 < n) : Nat.toDigits 10 (10 * n) = Nat.toDigits 10 n ++ ['0'] := by
  have more : Nat.toDigits 10 n ++ Nat.toDigits 10 0 = Nat.toDigits 10 (10 * n + 0) :=
    Nat.toDigits_append_toDigits (by decide) pos (by decide)
  exact more.symm

theorem padded_ten (n : Nat) : List.replicate (2 - (Nat.toDigits 10 (10 * n)).length) '0' ++
    Nat.toDigits 10 (10 * n) = Nat.toDigits 10 n ++ ['0'] := by
  rcases Nat.eq_zero_or_pos n with rfl | pos
  · rfl
  · have filled : 0 < (Nat.toDigits 10 n).length := Nat.length_toDigits_pos
    have long : 2 ≤ (Nat.toDigits 10 n ++ ['0']).length := by
      rw [List.length_append]
      exact Nat.succ_le_succ filled
    rw [toDigits_ten pos, Nat.sub_eq_zero_of_le long, List.replicate_zero, List.nil_append]

theorem positional_ten (n : Nat) : positional ⟨10 * n, -1⟩ = Nat.toDigits 10 n ++ ['.', '0'] := by
  have padded := padded_ten n
  simp only [positional, digits, if_neg (show ¬ (0 : Int) ≤ -1 by decide)]
  rw [show (-(-1 : Int)).toNat = 1 from rfl, padded]
  simp

/-- Zeros behind a number are those of a power of ten. -/
theorem toDigits_tens (pos : 0 < n) (k : Nat) :
    Nat.toDigits 10 (10 ^ k * n) = Nat.toDigits 10 n ++ List.replicate k '0' := by
  induction k with
  | zero => rw [Nat.pow_zero, Nat.one_mul, List.replicate_zero, List.append_nil]
  | succ k ih =>
    have tens : 10 ^ (k + 1) * n = 10 * (10 ^ k * n) := by ring
    rw [tens, toDigits_ten (Nat.mul_pos (Nat.pow_pos (by decide)) pos), ih, List.append_assoc,
      List.replicate_succ']

/-- The positional form of what a general form spells is that of the decimal, but for a zero behind
the point. -/
theorem withoutZero_general (own : d.exponent = -1 → d.coefficient % 10 ≠ 0)
    (none : d.coefficient = 0 → d.exponent = 0) (read : Numeral.decimal? d.general = some d') :
    withoutZero d'.positional = d.positional := by
  rcases d.decimal?_general with same | ⟨whole, longer⟩
  · cases same.symm.trans read
    exact withoutZero_positional own
  · cases longer.symm.trans read
    rw [positional_ten, withoutZero_append, positional_natural whole]
    rcases Nat.eq_zero_or_pos d.coefficient with zero | pos
    · rw [digits, zero, none zero]
      rfl
    · exact toDigits_tens pos _

end Positional

end Scriptlet.Decimal
