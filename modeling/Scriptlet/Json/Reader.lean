import Scriptlet.Assoc
import Scriptlet.Json
import Scriptlet.Decimal.Numeral

/-! Reading JSON text. Besides the standard's values it takes `NaN`, `Infinity` and `-Infinity`; of
two fields with one key the later value counts. Values nest only so deep. -/
namespace Scriptlet.Json

inductive ReadFault where
  | malformed
  | tooDeep
  deriving DecidableEq, Repr

namespace Reader

def isSpace (c : Char) : Bool := c == ' ' || c == '\t' || c == '\n' || c == '\r'

def skip (cs : List Char) : List Char := cs.dropWhile isSpace

def hexValue? (c : Char) : Option Nat :=
  if c.isDigit then some (c.toNat - '0'.toNat)
  else if 'a' ≤ c ∧ c ≤ 'f' then some (c.toNat - 'a'.toNat + 10)
  else if 'A' ≤ c ∧ c ≤ 'F' then some (c.toNat - 'A'.toNat + 10)
  else none

/-- Four hexadecimal digits. -/
def unit? : List Char → Option (Nat × List Char)
  | a :: b :: c :: d :: cs => do
    let a ← hexValue? a
    let b ← hexValue? b
    let c ← hexValue? c
    let d ← hexValue? d
    return (((a * 16 + b) * 16 + c) * 16 + d, cs)
  | _ => none

/-- A code unit, joined with the next one if the two are a surrogate pair. A surrogate by itself is
no character and becomes the replacement character. -/
def character? (cs : List Char) : Option (Char × List Char) := do
  let (high, cs) ← unit? cs
  if high < 0xD800 || 0xDFFF < high then return (Char.ofNat high, cs)
  else
    match cs with
    | '\\' :: 'u' :: after =>
      let (low, after) ← unit? after
      if high < 0xDC00 && 0xDC00 ≤ low && low ≤ 0xDFFF then
        return (Char.ofNat (0x10000 + (high - 0xD800) * 0x400 + (low - 0xDC00)), after)
      else return ('\uFFFD', cs)
    | _ => return ('\uFFFD', cs)

def escape? : List Char → Option (Char × List Char)
  | '"' :: cs => some ('"', cs)
  | '\\' :: cs => some ('\\', cs)
  | '/' :: cs => some ('/', cs)
  | 'b' :: cs => some ('\x08', cs)
  | 'f' :: cs => some ('\x0c', cs)
  | 'n' :: cs => some ('\n', cs)
  | 'r' :: cs => some ('\r', cs)
  | 't' :: cs => some ('\t', cs)
  | 'u' :: cs => character? cs
  | _ => none

/-- The rest of a string whose opening quote is read. -/
def string (fuel : Nat) (read : List Char) (cs : List Char) :
    Except ReadFault (String × List Char) :=
  match fuel with
  | 0 => .error .malformed
  | fuel + 1 =>
    match cs with
    | '"' :: cs => .ok (String.ofList read.reverse, cs)
    | '\\' :: cs =>
      match escape? cs with
      | some (c, cs) => string fuel (c :: read) cs
      | none => .error .malformed
    | c :: cs => if c.toNat < 0x20 then .error .malformed else string fuel (c :: read) cs
    | [] => .error .malformed

/-- The digits of a whole number: a zero, or digits that start with another one. -/
def whole : List Char → List Char × List Char
  | '0' :: cs => (['0'], cs)
  | cs => (cs.takeWhile Char.isDigit, cs.dropWhile Char.isDigit)

/-- A fraction, if a digit follows the point. -/
def fraction : List Char → List Char × List Char
  | '.' :: cs =>
    match cs.takeWhile Char.isDigit with
    | [] => ([], '.' :: cs)
    | digits => (digits, cs.dropWhile Char.isDigit)
  | cs => ([], cs)

/-- An exponent, if it has a digit. -/
def exponent : List Char → Option Int × List Char
  | [] => (none, [])
  | e :: cs =>
    if e = 'e' ∨ e = 'E' then
      let (negative, after) := Numeral.sign cs
      match after.takeWhile Char.isDigit with
      | [] => (none, e :: cs)
      | digits =>
        let size : Int := Numeral.natural digits
        (some (if negative then -size else size), after.dropWhile Char.isDigit)
    else (none, e :: cs)

def number (negative : Bool) (cs : List Char) : Except ReadFault (Json × List Char) :=
  match whole cs with
  | ([], _) => .error .malformed
  | (digits, cs) =>
    let (places, cs) := fraction cs
    let (power, cs) := exponent cs
    match places, power with
    | [], none =>
      let size : Int := Numeral.natural digits
      .ok (int (if negative then -size else size), cs)
    | _, _ =>
      let size := Numeral.nearest (digits ++ places) (power.getD 0 - places.length)
      .ok (float (Binary64.ofMagnitude negative size), cs)

mutual

/-- A value at the head of a text, inside which values nest at most `depth` deep. -/
def value (fuel depth : Nat) (cs : List Char) : Except ReadFault (Json × List Char) :=
  match fuel with
  | 0 => .error .malformed
  | fuel + 1 =>
    match cs with
    | '"' :: cs => do
      let (s, cs) ← string (cs.length + 1) [] cs
      return (.string s, cs)
    | '[' :: cs =>
      if depth = 0 then .error .tooDeep
      else match skip cs with
        | ']' :: cs => .ok (array [], cs)
        | cs => items fuel (depth - 1) [] cs
    | '{' :: cs =>
      if depth = 0 then .error .tooDeep
      else match skip cs with
        | '}' :: cs => .ok (object [], cs)
        | cs => fields fuel (depth - 1) [] cs
    | 'n' :: 'u' :: 'l' :: 'l' :: cs => .ok (null, cs)
    | 't' :: 'r' :: 'u' :: 'e' :: cs => .ok (bool true, cs)
    | 'f' :: 'a' :: 'l' :: 's' :: 'e' :: cs => .ok (bool false, cs)
    | 'N' :: 'a' :: 'N' :: cs => .ok (float Binary64.notANumber, cs)
    | 'I' :: 'n' :: 'f' :: 'i' :: 'n' :: 'i' :: 't' :: 'y' :: cs =>
      .ok (float (Binary64.ofMagnitude false Binary64.infinite), cs)
    | '-' :: 'I' :: 'n' :: 'f' :: 'i' :: 'n' :: 'i' :: 't' :: 'y' :: cs =>
      .ok (float (Binary64.ofMagnitude true Binary64.infinite), cs)
    | '-' :: cs => number true cs
    | cs => number false cs

/-- The items of an array from the next one on. -/
def items (fuel depth : Nat) (read : List Json) (cs : List Char) :
    Except ReadFault (Json × List Char) :=
  match fuel with
  | 0 => .error .malformed
  | fuel + 1 => do
    let (item, cs) ← value fuel depth cs
    match skip cs with
    | ']' :: cs => .ok (array (item :: read).reverse, cs)
    | ',' :: cs => items fuel depth (item :: read) (skip cs)
    | _ => .error .malformed

/-- The fields of an object from the next one on. -/
def fields (fuel depth : Nat) (read : Fields) (cs : List Char) :
    Except ReadFault (Json × List Char) :=
  match fuel with
  | 0 => .error .malformed
  | fuel + 1 =>
    match cs with
    | '"' :: cs => do
      let (key, cs) ← string (cs.length + 1) [] cs
      match skip cs with
      | ':' :: cs =>
        let (field, cs) ← value fuel depth (skip cs)
        let read := Assoc.insert read key field
        match skip cs with
        | '}' :: cs => .ok (object read, cs)
        | ',' :: cs => fields fuel depth read (skip cs)
        | _ => .error .malformed
      | _ => .error .malformed
    | _ => .error .malformed

end

end Reader

/-- The value that a whole text denotes, with nothing but space around it. Every step of the reader
takes a character or enters a value that does, so twice the length of the text is fuel enough. -/
def read (depth : Nat) (text : String) : Except ReadFault Json := do
  let cs := Reader.skip text.toList
  let (value, rest) ← Reader.value (2 * cs.length + 2) depth cs
  if Reader.skip rest = [] then return value else .error .malformed

end Scriptlet.Json
