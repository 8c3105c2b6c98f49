import Scriptlet.Decimal.Written

/-! The values a script computes with. -/
namespace Scriptlet

inductive Value where
  | number (x : Float)
  | string (s : String)
  | bool (b : Bool)
  | nil
  deriving DecidableEq

namespace Value

def isNumber : Value → Bool
  | number _ => true
  | _ => false

def typeName : Value → String
  | number _ => "Number"
  | string _ => "String"
  | bool _ => "Bool"
  | nil => "Nil"

/-- The form in which a value is printed. -/
def display : Value → String
  | number x => Binary64.shown x
  | string s => s
  | bool b => if b then "true" else "false"
  | nil => "nil"

/-- Zero and the empty string count as false, and so does false itself; all else, nil included,
counts as true. -/
def truthy : Value → Bool
  | number x => x != 0
  | string s => s != ""
  | bool b => b
  | nil => true

end Value

end Scriptlet
