import Scriptlet.Text.Printable

/-! Quoted text, the form in which a message names a piece of source: between quotes, on one line,
and readable whatever the piece holds. -/
namespace Scriptlet.Text

/-- The last `width` hexadecimal digits of a number, in lower case. -/
def hex (width n : Nat) : List Char :=
  match width with
  | 0 => []
  | w + 1 => hex w (n / 16) ++ [Nat.digitChar (n % 16)]

theorem length_hex (width n : Nat) : (hex width n).length = width := by
  induction width generalizing n with
  | zero => rfl
  | succ w ih => simp [hex, ih]

/-- Single quotes, except around a text that has a single quote and no double one. -/
def quoteFor (text : List Char) : Char :=
  if text.contains '\'' && !text.contains '"' then '"' else '\''

/-- One character inside quotes. -/
def escaped (quote c : Char) : List Char :=
  if c = quote ∨ c = '\\' then ['\\', c]
  else if c = '\n' then ['\\', 'n']
  else if c = '\r' then ['\\', 'r']
  else if c = '\t' then ['\\', 't']
  else if isPrintable c then [c]
  else if c.toNat < 0x100 then '\\' :: 'x' :: hex 2 c.toNat
  else if c.toNat < 0x10000 then '\\' :: 'u' :: hex 4 c.toNat
  else '\\' :: 'U' :: hex 8 c.toNat

def quoted (text : String) : String :=
  let chars := text.toList
  let quote := quoteFor chars
  String.ofList (quote :: chars.flatMap (escaped quote) ++ [quote])

end Scriptlet.Text
