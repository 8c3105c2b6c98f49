import Scriptlet.Decimal.Binary64

/-! Decimals, and the shortest decimal of a double: the one with the fewest digits that rounds back
to it, and of those the nearest to it. -/
namespace Scriptlet

/-- The decimal `coefficient · 10 ^ exponent`. -/
structure Decimal where
  coefficient : Nat
  exponent : Int
  deriving DecidableEq, Repr

namespace Decimal

/-- Numerator and denominator of a decimal. -/
def fraction (d : Decimal) : Nat × Nat :=
  if 0 ≤ d.exponent then (d.coefficient * Nat.pow 10 d.exponent.toNat, 1)
  else (d.coefficient, Nat.pow 10 (-d.exponent).toNat)

def nearest (d : Decimal) : Nat := Binary64.nearest d.fraction.1 d.fraction.2

/-- Moves a zero at the end of the coefficient into the exponent. -/
def trim (d : Decimal) : Decimal :=
  if d.coefficient % 10 = 0 then ⟨d.coefficient / 10, d.exponent + 1⟩ else d

/-- Every finite magnitude is a decimal: a power of two divides the same power of ten. -/
def exact (magnitude : Nat) : Decimal := ⟨Binary64.units magnitude * Nat.pow 5 1074, -1074⟩

/-- The place of the first digit of the positive fraction `n / d`: the greatest power of ten that
does not exceed it. -/
def leading (n d : Nat) : Int :=
  if d ≤ n then (Nat.toDigits 10 (n / d)).length - 1
  else match (d - 1) / n with
    | 0 => 0
    | k => -(Nat.toDigits 10 k).length

/-- The decimals on either side of `n / d` among the multiples of a power of ten, the nearer one
first. Halfway between them the even one is first. -/
def neighbours (n d : Nat) (exponent : Int) : List Decimal :=
  let n := n * Nat.pow 10 (-exponent).toNat
  let d := d * Nat.pow 10 exponent.toNat
  let below : Decimal := ⟨n / d, exponent⟩
  let above : Decimal := ⟨n / d + 1, exponent⟩
  let twice := 2 * (n % d)
  if d < twice || (twice == d && n / d % 2 == 1) then [above, below] else [below, above]

/-- Tries ever finer powers of ten, down from `exponent`, for a decimal that rounds to the
magnitude. -/
def refine (magnitude n d : Nat) : Nat → Int → Option Decimal
  | 0, _ => none
  | digits + 1, exponent =>
    match ((neighbours n d exponent).map trim).find? (·.nearest = magnitude) with
    | some found => some found
    | none => refine magnitude n d digits (exponent - 1)

/-- The shortest decimal of a positive finite magnitude. Seventeen digits are enough for any. -/
def shortest (magnitude : Nat) : Decimal :=
  let n := Binary64.units magnitude
  let d := Binary64.unitsPerOne
  (refine magnitude n d 17 (leading n d)).getD (exact magnitude)

end Decimal

end Scriptlet
