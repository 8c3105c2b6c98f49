import Scriptlet.Decimal.Shortest

/-! The two written forms of a number: positional, which never has an exponent, and general, which
has one where the positional form would be long. -/
namespace Scriptlet

namespace Decimal

def digits (d : Decimal) : List Char := Nat.toDigits 10 d.coefficient

/-- All digits in their places, with a point before the fraction if there is one. -/
def positional (d : Decimal) : List Char :=
  if 0 ≤ d.exponent then d.digits ++ List.replicate d.exponent.toNat '0'
  else
    let places := (-d.exponent).toNat
    let padded := List.replicate (places + 1 - d.digits.length) '0' ++ d.digits
    padded.take (padded.length - places) ++ '.' :: padded.drop (padded.length - places)

/-- One digit before the point, and the exponent with its sign and at least two digits. -/
def scientific (d : Decimal) : List Char :=
  let place := d.exponent + (d.digits.length - 1 : Nat)
  let exponent := Nat.toDigits 10 place.natAbs
  let fraction := match d.digits with
    | first :: [] => [first]
    | first :: others => first :: '.' :: others
    | [] => []
  fraction ++ 'e' :: (if place < 0 then '-' else '+') ::
    (List.replicate (2 - exponent.length) '0' ++ exponent)

/-- Positional from `10⁻⁴` up to `10¹⁶`, where it always shows a fraction; else with an exponent. -/
def general (d : Decimal) : List Char :=
  let place := d.exponent + (d.digits.length - 1 : Nat)
  if place < -4 ∨ 16 ≤ place then d.scientific
  else if 0 ≤ d.exponent then d.positional ++ ['.', '0']
  else d.positional

end Decimal

namespace Binary64

def signed (x : Float) (text : List Char) : List Char := if isNegative x then '-' :: text else text

/-- The form in which a number is shown: the digits of its shortest decimal, positionally. -/
def shown (x : Float) : String :=
  let size := magnitude x
  if infinite < size then "NaN"
  else if size = infinite then String.ofList (signed x ['i', 'n', 'f'])
  else if size = 0 then String.ofList (signed x ['0'])
  else String.ofList (signed x (Decimal.shortest size).positional)

/-- The form in which a number stands in a message about stored data. -/
def literal (x : Float) : String :=
  let size := magnitude x
  if infinite < size then "nan"
  else if size = infinite then String.ofList (signed x ['i', 'n', 'f'])
  else if size = 0 then String.ofList (signed x ['0', '.', '0'])
  else String.ofList (signed x (Decimal.shortest size).general)

end Binary64

end Scriptlet
