/-! Stored data: JSON values. Integers are kept apart from other numbers, and the fields of an
object keep their order. -/
namespace Scriptlet

inductive Json where
  | null
  | bool (b : Bool)
  | int (n : Int)
  | float (x : Float)
  | string (s : String)
  | array (items : List Json)
  | object (fields : List (String × Json))
  deriving Inhabited

namespace Json

/-- The word by which a message calls a sort of value. -/
def sort : Json → String
  | null => "NoneType"
  | bool _ => "bool"
  | int _ => "int"
  | float _ => "float"
  | string _ => "str"
  | array _ => "list"
  | object _ => "dict"

abbrev Fields := List (String × Json)

end Json

end Scriptlet
