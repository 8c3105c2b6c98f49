import Scriptlet.Json
import Scriptlet.Text.Quoted
import Scriptlet.Decimal.Written

/-! Writing JSON text over several lines, two spaces further in for each level. -/
namespace Scriptlet.Json

def escapedChar (c : Char) : List Char :=
  if c = '"' then ['\\', '"']
  else if c = '\\' then ['\\', '\\']
  else if c = '\n' then ['\\', 'n']
  else if c = '\r' then ['\\', 'r']
  else if c = '\t' then ['\\', 't']
  else if c = '\x08' then ['\\', 'b']
  else if c = '\x0c' then ['\\', 'f']
  else if c.toNat < 0x20 then '\\' :: 'u' :: Text.hex 4 c.toNat
  else [c]

def writtenString (s : String) : List Char := '"' :: s.toList.flatMap escapedChar ++ ['"']

def writtenFloat (x : Float) : List Char :=
  let size := Binary64.magnitude x
  if Binary64.infinite < size then ['N', 'a', 'N']
  else if size = Binary64.infinite then
    Binary64.signed x ['I', 'n', 'f', 'i', 'n', 'i', 't', 'y']
  else (Binary64.literal x).toList

def lineBreak (level : Nat) : List Char := '\n' :: List.replicate (2 * level) ' '

mutual

/-- A value whose first line stands at `level`. -/
def written (level : Nat) : Json → List Char
  | null => ['n', 'u', 'l', 'l']
  | bool true => ['t', 'r', 'u', 'e']
  | bool false => ['f', 'a', 'l', 's', 'e']
  | int n => (toString n).toList
  | float x => writtenFloat x
  | string s => writtenString s
  | array [] => ['[', ']']
  | array (item :: items) =>
    '[' :: lineBreak (level + 1) ++ item.written (level + 1) ++ writtenItems (level + 1) items ++
      lineBreak level ++ [']']
  | object [] => ['{', '}']
  | object ((key, value) :: fields) =>
    '{' :: lineBreak (level + 1) ++ writtenString key ++ [':', ' '] ++ value.written (level + 1) ++
      writtenFields (level + 1) fields ++ lineBreak level ++ ['}']

/-- The items after the first, each after a comma on a line of its own. -/
def writtenItems (level : Nat) : List Json → List Char
  | [] => []
  | item :: items => ',' :: lineBreak level ++ item.written level ++ writtenItems level items

def writtenFields (level : Nat) : List (String × Json) → List Char
  | [] => []
  | (key, value) :: fields =>
    ',' :: lineBreak level ++ writtenString key ++ [':', ' '] ++ value.written level ++
      writtenFields level fields

end

def write (value : Json) : String := String.ofList (value.written 0)

end Scriptlet.Json
