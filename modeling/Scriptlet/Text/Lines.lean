/-! Lines of text. Files may end their lines in three ways; scripts see one of them. -/
namespace Scriptlet.Text

/-- Makes a line feed of every carriage return and of every carriage return with a line feed. -/
def unifyLineEnds : List Char → List Char
  | '\r' :: '\n' :: cs => '\n' :: unifyLineEnds cs
  | '\r' :: cs => '\n' :: unifyLineEnds cs
  | c :: cs => c :: unifyLineEnds cs
  | [] => []

/-- The lines of a text without their ends. What follows the last line feed is a line unless it is
empty. -/
def lines (cs : List Char) : List (List Char) := go [] cs
where
  go (line : List Char) : List Char → List (List Char)
    | [] => if line = [] then [] else [line.reverse]
    | '\n' :: cs => line.reverse :: go [] cs
    | c :: cs => go (c :: line) cs

/-- The text of a file, unless its bytes are not UTF-8. -/
def ofBytes? (bytes : ByteArray) : Option String :=
  (String.fromUTF8? bytes).map fun s => String.ofList (unifyLineEnds s.toList)

end Scriptlet.Text
