import Mathlib.Tactic.Ring
import Scriptlet.Decimal.Binary64

/-! Doubles and their bits: a finite double is its magnitude with a sign, and negation turns the sign
around. -/
namespace Scriptlet.Binary64

open Float.Model (Format UnpackedFloat)
open Float.Model.UnpackedFloat (pack unpack packComponents unpackExponent unpackMantissa unpackSign
  unpackExponent_packComponents unpackMantissa_packComponents)

/-- The bits of a double, from its parts. -/
def join (sign : UnpackedFloat.Sign) (exponent : BitVec 11) (mantissa : BitVec 52) : BitVec 64 :=
  packComponents Format.binary64 sign exponent mantissa

theorem toNat_join (sign : UnpackedFloat.Sign) (exponent : BitVec 11) (mantissa : BitVec 52) :
    (join sign exponent mantissa).toNat =
      sign.toBitVec.toNat * 2 ^ 63 + exponent.toNat * 2 ^ 52 + mantissa.toNat := by
  have first : (sign.toBitVec ++ exponent).toNat = sign.toBitVec.toNat * 2 ^ 11 + exponent.toNat := by
    rw [BitVec.toNat_append, ← Nat.shiftLeft_add_eq_or_of_lt exponent.isLt, Nat.shiftLeft_eq]
  have whole : (sign.toBitVec ++ exponent ++ mantissa).toNat =
      (sign.toBitVec ++ exponent).toNat * 2 ^ 52 + mantissa.toNat := by
    rw [BitVec.toNat_append, ← Nat.shiftLeft_add_eq_or_of_lt mantissa.isLt, Nat.shiftLeft_eq]
  change (sign.toBitVec ++ exponent ++ mantissa).toNat = _
  rw [whole, first]
  ring

theorem unpackSign_join (sign : UnpackedFloat.Sign) (exponent : BitVec 11) (mantissa : BitVec 52) :
    @unpackSign Format.binary64 (join sign exponent mantissa) = sign.toBitVec := by
  apply BitVec.eq_of_toNat_eq
  have whole := toNat_join sign exponent mantissa
  have first := sign.toBitVec.isLt
  have second := exponent.isLt
  have third := mantissa.isLt
  change (BitVec.cast _ (BitVec.extractLsb 63 63 _)).toNat = _
  rw [BitVec.toNat_cast, BitVec.extractLsb_toNat, Nat.shiftRight_eq_div_pow]
  omega

theorem ofBitVec_toBitVec (sign : UnpackedFloat.Sign) :
    UnpackedFloat.Sign.ofBitVec sign.toBitVec = sign := by
  cases sign <;> rfl

theorem unpackExponent_join (sign : UnpackedFloat.Sign) (exponent : BitVec 11)
    (mantissa : BitVec 52) : @unpackExponent Format.binary64 (join sign exponent mantissa) = exponent :=
  unpackExponent_packComponents

theorem unpackMantissa_join (sign : UnpackedFloat.Sign) (exponent : BitVec 11)
    (mantissa : BitVec 52) : @unpackMantissa Format.binary64 (join sign exponent mantissa) = mantissa :=
  unpackMantissa_packComponents

theorem toNat_leading (mantissa : BitVec 52) : (1#1 ++ mantissa).toNat = 2 ^ 52 + mantissa.toNat := by
  rw [BitVec.toNat_append, ← Nat.shiftLeft_add_eq_or_of_lt mantissa.isLt]
  rfl

theorem toNat_ne_zero {mantissa : BitVec 52} (some : mantissa ≠ 0#52) : mantissa.toNat ≠ 0 :=
  fun none => some (BitVec.eq_of_toNat_eq none)

/-- The number that parts stand for. -/
def assemble (sign : UnpackedFloat.Sign) (exponent : BitVec 11) (mantissa : BitVec 52) :
    UnpackedFloat :=
  if exponent = -1#11 then if mantissa = 0#52 then .infinity sign else .notANumber
  else if exponent = 0#11 then
    if some : mantissa = 0#52 then .zero sign
    else .finite sign mantissa.toNat (exponent.toNat - (Format.binary64.exponentBias + 52) + 1)
      (Nat.pos_of_ne_zero (toNat_ne_zero some))
  else .finite sign (1#1 ++ mantissa).toNat (exponent.toNat - (Format.binary64.exponentBias + 52))
    (toNat_leading mantissa ▸ Nat.add_pos_left (by decide) _)

theorem unpack_join (sign : UnpackedFloat.Sign) (exponent : BitVec 11) (mantissa : BitVec 52) :
    unpack Format.binary64 (join sign exponent mantissa) = assemble sign exponent mantissa := by
  have parts : ∀ b, unpack Format.binary64 b =
      assemble (.ofBitVec (unpackSign b)) (unpackExponent b) (unpackMantissa b) := fun b => rfl
  rw [parts, unpackSign_join, unpackExponent_join, unpackMantissa_join, ofBitVec_toBitVec]

theorem pack_finite (sign : UnpackedFloat.Sign) (exponent : Int) (pos : 0 < m) :
    pack Format.binary64 (.finite sign m exponent pos) =
      if 2048 ≤ (exponent + Format.binary64.exponentBias + 52).toNat + 1 then join sign (-1#11) 0
      else if m.log2 + 1 = 53 then
        join sign (BitVec.ofNat 11 (exponent + Format.binary64.exponentBias + 52).toNat)
          (BitVec.ofNat 52 m)
      else join sign 0#11 (BitVec.ofNat 52 m) := rfl

/-- Negation turns the sign around, and nothing else. -/
theorem neg_assemble (sign : UnpackedFloat.Sign) (exponent : BitVec 11) (mantissa : BitVec 52) :
    (assemble sign exponent mantissa).neg = assemble (-sign) exponent mantissa := by
  unfold assemble
  by_cases top : exponent = -1#11
  · rw [if_pos top, if_pos top]
    split <;> rfl
  rw [if_neg top, if_neg top]
  by_cases zero : exponent = 0#11
  · rw [if_pos zero, if_pos zero]
    by_cases none : mantissa = 0#52
    · rw [dif_pos none, dif_pos none]
      rfl
    · rw [dif_neg none, dif_neg none]
      rfl
  · rw [if_neg zero, if_neg zero]
    rfl

/-- Parts of a finite double are what they were when put together. -/
theorem pack_assemble (sign : UnpackedFloat.Sign) {exponent : BitVec 11} (finite : exponent ≠ -1#11)
    (mantissa : BitVec 52) :
    pack Format.binary64 (assemble sign exponent mantissa) = join sign exponent mantissa := by
  have below := exponent.isLt
  have within : exponent.toNat < 2047 := by
    have other : exponent.toNat ≠ 2047 := fun same => finite (BitVec.eq_of_toNat_eq same)
    omega
  have small := mantissa.isLt
  rw [assemble, if_neg finite]
  by_cases zero : exponent = 0#11
  · subst zero
    rw [if_pos rfl]
    by_cases none : mantissa = 0#52
    · subst none
      rfl
    · have bits : mantissa.toNat.log2 < 52 := (Nat.log2_lt (toNat_ne_zero none)).mpr small
      have biased : ((0#11).toNat - ((Format.binary64.exponentBias : Int) + 52) + 1 +
          Format.binary64.exponentBias + 52).toNat = 1 := by
        rw [BitVec.toNat_ofNat]
        omega
      rw [dif_neg none, pack_finite, biased, if_neg (by decide), if_neg (by omega),
        BitVec.ofNat_toNat, BitVec.setWidth_eq]
  · have biased : ((exponent.toNat : Int) - (Format.binary64.exponentBias + 52) +
        Format.binary64.exponentBias + 52).toNat = exponent.toNat := by
      omega
    have bits : (2 ^ 52 + mantissa.toNat).log2 = 52 :=
      (Nat.log2_eq_iff (by omega)).mpr ⟨Nat.le_add_right _ _, by omega⟩
    have kept : BitVec.ofNat 52 (2 ^ 52 + mantissa.toNat) = mantissa := by
      apply BitVec.eq_of_toNat_eq
      rw [BitVec.toNat_ofNat, Nat.add_mod_left, Nat.mod_eq_of_lt small]
    rw [if_neg zero, pack_finite, biased, if_neg (by omega), toNat_leading, bits, if_pos rfl, kept,
      BitVec.ofNat_toNat, BitVec.setWidth_eq]

def signOf (negative : Bool) : UnpackedFloat.Sign := if negative then .negative else .positive

/-- A magnitude with a sign, as bits. -/
theorem toBitVec_ofNat (negative : Bool) (bound : m < signBit) :
    (UInt64.ofNat (m + if negative then signBit else 0)).toBitVec =
      join (signOf negative) (BitVec.ofNat 11 (m / binade)) (BitVec.ofNat 52 (m % binade)) := by
  apply BitVec.eq_of_toNat_eq
  have sign : (signOf negative).toBitVec.toNat * 2 ^ 63 = if negative then signBit else 0 := by
    cases negative <;> rfl
  have split : m / 2 ^ 52 * 2 ^ 52 + m % 2 ^ 52 = m := Nat.div_add_mod' m (2 ^ 52)
  have bound : m < 2 ^ 63 := bound
  have first : m / 2 ^ 52 < 2 ^ 11 := by omega
  have second : m % 2 ^ 52 < 2 ^ 52 := by omega
  rw [toNat_join, sign, BitVec.toNat_ofNat, BitVec.toNat_ofNat]
  change _ % 2 ^ 64 = _ + m / 2 ^ 52 % 2 ^ 11 * 2 ^ 52 + m % 2 ^ 52 % 2 ^ 52
  rw [Nat.mod_eq_of_lt first, Nat.mod_eq_of_lt second, Nat.add_assoc, split]
  have fits : m + (if negative then signBit else 0) < 2 ^ 64 := by
    change m + (if negative then 2 ^ 63 else 0) < 2 ^ 64
    split <;> omega
  rw [Nat.mod_eq_of_lt fits, Nat.add_comm]

/-- The exponent of a finite magnitude is not the one kept for infinity. -/
theorem exponent_ne (finite : m < infinite) : BitVec.ofNat 11 (m / binade) ≠ -1#11 := by
  intro same
  have same := congrArg BitVec.toNat same
  have below : m / binade < 2047 := Nat.div_lt_of_lt_mul (by rwa [Nat.mul_comm])
  rw [BitVec.toNat_ofNat, Nat.mod_eq_of_lt (by omega)] at same
  exact absurd same (Nat.ne_of_lt below)

theorem lt_signBit (finite : m < infinite) : m < signBit :=
  Nat.lt_trans finite (by decide)

/-- A double is told by its bits. -/
theorem eq_of_toBits {x y : Float} (same : x.toBits = y.toBits) : x = y := by
  obtain ⟨⟨a, _⟩⟩ := x
  obtain ⟨⟨b, _⟩⟩ := y
  cases same
  rfl

theorem toBits_ofMagnitude (negative : Bool) (finite : m < infinite) :
    (ofMagnitude negative m).toBits = UInt64.ofNat (m + if negative then signBit else 0) := by
  apply UInt64.eq_of_toBitVec_eq
  change pack Format.binary64 (unpack Format.binary64 (UInt64.ofNat (m + _)).toBitVec) = _
  rw [toBitVec_ofNat negative (lt_signBit finite), unpack_join, pack_assemble _ (exponent_ne finite)]

theorem toBits_eq (x : Float) :
    x.toBits = UInt64.ofNat (magnitude x + if isNegative x then signBit else 0) := by
  have bound := x.toBits.toNat_lt
  have whole : x.toBits.toNat % 2 ^ 63 + (if 2 ^ 63 ≤ x.toBits.toNat then 2 ^ 63 else 0) =
      x.toBits.toNat := by
    split <;> omega
  have same : magnitude x + (if isNegative x then signBit else 0) = x.toBits.toNat := by
    rw [← whole]
    simp only [isNegative, decide_eq_true_eq]
    rfl
  rw [same, UInt64.ofNat_toNat]

/-- A finite double is its magnitude, with its sign. -/
theorem ofMagnitude_magnitude {x : Float} (finite : magnitude x < infinite) :
    ofMagnitude (isNegative x) (magnitude x) = x := by
  apply eq_of_toBits
  rw [toBits_ofMagnitude _ finite, ← toBits_eq]

theorem neg_ofMagnitude (finite : m < infinite) : -ofMagnitude false m = ofMagnitude true m := by
  apply eq_of_toBits
  rw [toBits_ofMagnitude true finite]
  apply UInt64.eq_of_toBitVec_eq
  change pack Format.binary64
    (unpack Format.binary64 (ofMagnitude false m).toBits.toBitVec).neg = _
  rw [toBits_ofMagnitude false finite, toBitVec_ofNat false (lt_signBit finite), unpack_join,
    neg_assemble, pack_assemble _ (exponent_ne finite), toBitVec_ofNat true (lt_signBit finite)]
  rfl

theorem magnitude_lt_infinite {x : Float} (finite : x.isFinite = true) : magnitude x < infinite := by
  refine Nat.lt_of_not_le fun large => ?_
  have bound : magnitude x < signBit := Nat.mod_lt _ (by decide)
  have exponent : BitVec.ofNat 11 (magnitude x / binade) = -1#11 := by
    have bound : magnitude x < 2 ^ 63 := bound
    have large : 2047 * 2 ^ 52 ≤ magnitude x := large
    have top : magnitude x / 2 ^ 52 = 2047 := by omega
    rw [show magnitude x / binade = 2047 from top]
    rfl
  have unpacked : (unpack Format.binary64 x.toBits.toBitVec).isFinite = true := finite
  rw [toBits_eq, toBitVec_ofNat _ bound, exponent, unpack_join, assemble, if_pos rfl] at unpacked
  split at unpacked <;> cases unpacked

end Scriptlet.Binary64
