/-! Classes of characters given as intervals of code points, the form in which the character
database lists them. -/
namespace Scriptlet.Text

/-- A character lies in a class when one of its intervals, both ends included, holds its code
point. -/
def inIntervals (intervals : List (Nat × Nat)) (c : Char) : Bool :=
  intervals.any fun (first, last) => first ≤ c.toNat && c.toNat ≤ last

end Scriptlet.Text
