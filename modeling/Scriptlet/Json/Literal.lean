import Scriptlet.Json
import Scriptlet.Text.Quoted
import Scriptlet.Decimal.Written

/-! The form in which a message shows a stored value that it did not expect. -/
namespace Scriptlet.Json

mutual

/-- A value as part of a larger one: strings are quoted. -/
def literal : Json → String
  | null => "None"
  | bool b => if b then "True" else "False"
  | int n => toString n
  | float x => Binary64.literal x
  | string s => Text.quoted s
  | array items => "[" ++ String.intercalate ", " (literals items) ++ "]"
  | object fields => "\x7b" ++ String.intercalate ", " (fieldLiterals fields) ++ "\x7d"

def literals : List Json → List String
  | [] => []
  | item :: items => item.literal :: literals items

def fieldLiterals : List (String × Json) → List String
  | [] => []
  | (key, value) :: fields => (Text.quoted key ++ ": " ++ value.literal) :: fieldLiterals fields

end

/-- A value by itself: a string stands without quotes. -/
def bare : Json → String
  | string s => s
  | value => value.literal

end Scriptlet.Json
