/-! Double-precision numbers as magnitudes on one exact grid. The magnitude of a finite double is a
number below `infinite`, its bits without the sign; it stands for `units` steps of `2⁻¹⁰⁷⁴`, the
smallest positive double. `nearest` rounds a fraction to a magnitude. -/
namespace Scriptlet.Binary64

/-- How many magnitudes share an exponent. -/
def binade : Nat := Nat.pow 2 52

/-- What the bits of a negative double have more than those of its magnitude. -/
def signBit : Nat := Nat.pow 2 63

/-- The magnitude of infinity; what lies beyond is no number. -/
def infinite : Nat := 0x7FF * binade

/-- How many of the smallest steps make one. -/
def unitsPerOne : Nat := Nat.pow 2 1074

/-- The number of smallest steps in a finite magnitude. -/
def units (magnitude : Nat) : Nat :=
  if magnitude < binade then magnitude
  else (binade + magnitude % binade) * Nat.pow 2 (magnitude / binade - 1)

/-- The magnitude nearest to the fraction `n / d`, an exact half going to the even neighbour. Beyond
the largest finite magnitude it is infinite. -/
def nearest (n d : Nat) : Nat :=
  let scaled := n * unitsPerOne
  let exponent := (scaled / d).log2 - 52
  let step := d * Nat.pow 2 exponent
  let significand := scaled / step
  let twice := 2 * (scaled % step)
  let up := step < twice || (twice == step && significand % 2 == 1)
  min (exponent * binade + significand + if up then 1 else 0) infinite

/-- The bits of a double without its sign. -/
def magnitude (x : Float) : Nat := x.toBits.toNat % signBit

def isNegative (x : Float) : Bool := signBit ≤ x.toBits.toNat

def ofMagnitude (negative : Bool) (magnitude : Nat) : Float :=
  Float.ofBits (UInt64.ofNat (magnitude + if negative then signBit else 0))

def notANumber : Float := ofMagnitude false (infinite + binade / 2)

end Scriptlet.Binary64
