import Scriptlet.Text.Interval

/-! White space: the characters that may stand around a numeral. -/
namespace Scriptlet.Text

/-- The white space of ASCII that a line of text can hold: tab to carriage return, and space. -/
def isAsciiBlank (c : Char) : Bool :=
  c == ' ' || (9 ≤ c.toNat && c.toNat ≤ 13)

/-- The white space beyond ASCII, as Unicode 14 lists it. -/
def blankIntervals : List (Nat × Nat) :=
  [(0x85, 0x85), (0xA0, 0xA0), (0x1680, 0x1680), (0x2000, 0x200A), (0x2028, 0x2029),
   (0x202F, 0x202F), (0x205F, 0x205F), (0x3000, 0x3000)]

/-- White space that is not ASCII. -/
def isWideBlank (c : Char) : Bool := inIntervals blankIntervals c

end Scriptlet.Text
