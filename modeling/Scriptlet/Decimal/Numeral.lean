import Scriptlet.Decimal.Shortest
import Scriptlet.Text.Blank
import Scriptlet.Text.Numeric

/-! Reading a numeral: blanks around it are ignored, a sign, an exponent and single underscores
between digits are allowed, the digits may be those of any script, and infinity and not-a-number
have names. The double read is the nearest to the decimal written. -/
namespace Scriptlet.Numeral

/-- Decimal digits and white space of other scripts become those of ASCII. A character with no
counterpart becomes one that no numeral holds. -/
def narrow (c : Char) : Char :=
  if c.toNat < 0x80 then c
  else if Text.isWideBlank c then ' '
  else match Text.digitValue? c with
    | some d => Nat.digitChar d
    | none => '?'

/-- Drops underscores, each of which has to stand between two digits. -/
def joinGroups (before : Char) : List Char → Option (List Char)
  | [] => some []
  | '_' :: c :: cs =>
    if before.isDigit && c.isDigit then (joinGroups c cs).map (c :: ·) else none
  | '_' :: [] => none
  | c :: cs => (joinGroups c cs).map (c :: ·)

def strip (cs : List Char) : List Char :=
  ((cs.dropWhile Text.isAsciiBlank).reverse.dropWhile Text.isAsciiBlank).reverse

def sign : List Char → Bool × List Char
  | '-' :: cs => (true, cs)
  | '+' :: cs => (false, cs)
  | cs => (false, cs)

def natural (cs : List Char) : Nat := Nat.ofDigitChars 10 cs 0

/-- The exponent at the end of a numeral; none written means zero. -/
def exponent? : List Char → Option Int
  | [] => some 0
  | c :: cs =>
    if c = 'e' ∨ c = 'E' then
      let (negative, digits) := sign cs
      if digits ≠ [] ∧ digits.all Char.isDigit then
        some (if negative then -(natural digits : Int) else natural digits)
      else none
    else none

/-- The magnitude nearest to `digits · 10 ^ exponent`. Exponents beyond the range of doubles are
settled without raising the power. -/
def nearest (digits : List Char) (exponent : Int) : Nat :=
  let coefficient := natural digits
  if coefficient = 0 then 0
  else if 400 < exponent then Binary64.infinite
  else if digits.length + exponent < -400 then 0
  else Decimal.nearest ⟨coefficient, exponent⟩

/-- The magnitude of a decimal with an optional point and an optional exponent. -/
def magnitude? (cs : List Char) : Option Nat :=
  let whole := cs.takeWhile Char.isDigit
  let rest := cs.dropWhile Char.isDigit
  let (fraction, rest) := match rest with
    | '.' :: after => (after.takeWhile Char.isDigit, after.dropWhile Char.isDigit)
    | _ => ([], rest)
  if whole ++ fraction = [] then none
  else (exponent? rest).map fun exponent => nearest (whole ++ fraction) (exponent - fraction.length)

def ofChars? (cs : List Char) : Option Float :=
  (joinGroups ' ' (cs.map narrow)).bind fun cs =>
    let (negative, cs) := sign (strip cs)
    let lower := cs.map Char.toLower
    if lower = ['i', 'n', 'f'] ∨ lower = ['i', 'n', 'f', 'i', 'n', 'i', 't', 'y'] then
      some (Binary64.ofMagnitude negative Binary64.infinite)
    else if lower = ['n', 'a', 'n'] then some Binary64.notANumber
    else (magnitude? cs).map (Binary64.ofMagnitude negative)

end Scriptlet.Numeral

namespace Scriptlet

/-- The number that a text denotes, if it is a numeral. -/
def readNumber? (text : String) : Option Float := Numeral.ofChars? text.toList

end Scriptlet
