import Scriptlet.Node
import Scriptlet.Json.Literal

/-! The stored form of trees and programs, as JSON. Tokens are kept whole, so that a program loaded
again reports the same lines as its source. Loading is lenient about fields it does not know and
about sequences that are not arrays but empty. -/
namespace Scriptlet

inductive StoredFault where
  | missingField (name : String)
  /-- A token kind that does not exist, as a message shows it. -/
  | unknownKind (shown : String)
  /-- A value without fields where a token is read. -/
  | notAToken
  /-- A token kind that is itself a collection. -/
  | collectionAsKind
  /-- A lexeme that is not a text or a line that is not a whole number. -/
  | tokenField
  | notATree (sort : String)
  | unknownTree (shown : String)
  /-- A value that cannot be gone through, where a list of statements is read. -/
  | notASequence
  | notAProgram (shown : String)
  /-- A value without fields where a program is read. -/
  | programWithoutFields
  | tooDeep
  deriving DecidableEq, Repr

/-- The message of a fault, if it has one. A missing field and an unknown kind are only named. -/
def StoredFault.message? : StoredFault → Option String
  | missingField name => some (Text.quoted name)
  | unknownKind shown => some shown
  | notATree sort => some ("Expected an AST object, got " ++ sort)
  | unknownTree shown => some ("Unknown AST object type: " ++ shown)
  | notAProgram shown => some ("Expected a Program object, got " ++ shown)
  | _ => none

namespace Token

def stored (t : Token) : Json :=
  .object [("type", .string "Token"), ("token_type", .string t.kind.code),
    ("lexeme", .string t.lexeme), ("line", .int t.line)]

end Token

namespace TokenKind

def ofStored : Json → Except StoredFault TokenKind
  | .array _ | .object _ => .error .collectionAsKind
  | .string code =>
    match ofCode? code with
    | some k => .ok k
    | none => .error (.unknownKind (Text.quoted code))
  | value => .error (.unknownKind value.literal)

end TokenKind

namespace Stored

def field (fields : Json.Fields) (name : String) : Except StoredFault Json :=
  match fields.lookup name with
  | some value => .ok value
  | none => .error (.missingField name)

def text : Json → Except StoredFault String
  | .string s => .ok s
  | _ => .error .tokenField

def whole : Json → Except StoredFault Int
  | .int n => .ok n
  | _ => .error .tokenField

/-- Reads a token by its fields; what sort of object it says it is does not matter. -/
def token : Json → Except StoredFault Token
  | .object fields => do
    let kind ← TokenKind.ofStored (← field fields "token_type")
    let lexeme ← text (← field fields "lexeme")
    let line ← whole (← field fields "line")
    return ⟨kind, lexeme, line⟩
  | _ => .error .notAToken

/-- The members of a list of statements. A text or an object is gone through by its characters or
keys, none of which is a tree. -/
def sequence : Option Json → Except StoredFault (List Json)
  | none => .ok []
  | some (.array items) => .ok items
  | some (.string s) => if s = "" then .ok [] else .error (.notATree (Json.string s).sort)
  | some (.object []) => .ok []
  | some (.object ((key, _) :: _)) => .error (.notATree (Json.string key).sort)
  | some _ => .error .notASequence

end Stored

namespace Node

/-- An object that says what sort of tree it is. -/
def tagged (sort : String) (fields : Json.Fields) : Json :=
  .object (("type", .string sort) :: fields)

mutual

def stored : Node → Json
  | missing => .null
  | token t => t.stored
  | binary left operator right =>
    tagged "Binary" [("left", left.stored), ("operator", operator.stored), ("right", right.stored)]
  | unary operator operand =>
    tagged "Unary" [("operator", operator.stored), ("operand", operand.stored)]
  | grouping inner => tagged "Grouping" [("inner", inner.stored)]
  | literal t => tagged "Literal" [("token", t.stored)]
  | reference name => tagged "Variable" [("name", name.stored)]
  | assign name value => tagged "Assign" [("name", name.stored), ("value", value.stored)]
  | declare name initial =>
    tagged "VarDecl" [("name", name.stored), ("initializer", initial.stored)]
  | print value => tagged "Print" [("expr", value.stored)]
  | expression value => tagged "ExprStmt" [("expr", value.stored)]
  | block statements => tagged "Block" [("statements", .array (storedAll statements))]

def storedAll : List Node → List Json
  | [] => []
  | n :: ns => n.stored :: storedAll ns

end

/-- Stores a tree if it keeps within the limit on nesting. -/
def store (n : Node) : Except StoredFault Json :=
  if n.height ≤ nestingLimit then .ok n.stored else .error .tooDeep

/-- Loads a tree that needs at most `budget` nested steps. -/
def ofStored (budget : Nat) (o : Json) : Except StoredFault Node :=
  match budget with
  | 0 => .error .tooDeep
  | b + 1 =>
    match o with
    | .null => .ok missing
    | .object fields =>
      match fields.lookup "type" with
      | some (.string "Token") => do return token (← Stored.token o)
      | some (.string "Binary") => do
        let left ← ofStored b (← Stored.field fields "left")
        let operator ← Stored.token (← Stored.field fields "operator")
        let right ← ofStored b (← Stored.field fields "right")
        return binary left operator right
      | some (.string "Unary") => do
        let operator ← Stored.token (← Stored.field fields "operator")
        let operand ← ofStored b (← Stored.field fields "operand")
        return unary operator operand
      | some (.string "Grouping") => do
        return grouping (← ofStored b (← Stored.field fields "inner"))
      | some (.string "Literal") => do
        return literal (← Stored.token (← Stored.field fields "token"))
      | some (.string "Variable") => do
        return reference (← Stored.token (← Stored.field fields "name"))
      | some (.string "Assign") => do
        let name ← Stored.token (← Stored.field fields "name")
        let value ← ofStored b (← Stored.field fields "value")
        return assign name value
      | some (.string "VarDecl") => do
        let name ← Stored.token (← Stored.field fields "name")
        let initial ← ofStored b ((fields.lookup "initializer").getD .null)
        return declare name initial
      | some (.string "Print") => do
        return print (← ofStored b (← Stored.field fields "expr"))
      | some (.string "ExprStmt") => do
        return expression (← ofStored b (← Stored.field fields "expr"))
      | some (.string "Block") => do
        let items ← Stored.sequence (fields.lookup "statements")
        match b with
        | 0 => .error .tooDeep
        | b + 1 => return block (← items.mapM (ofStored b))
      | type => .error (.unknownTree (type.getD .null).bare)
    | o => .error (.notATree o.sort)

end Node

namespace Program

def stored (statements : List Node) : Json :=
  .object [("type", .string "Program"), ("body", .array (statements.map Node.stored))]

/-- Stores a program if it keeps within the limit on nesting. -/
def store (statements : List Node) : Except StoredFault Json :=
  if statements.all (·.height ≤ nestingLimit) then .ok (stored statements) else .error .tooDeep

def ofStored (o : Json) : Except StoredFault (List Node) :=
  match o with
  | .object fields =>
    match fields.lookup "type" with
    | some (.string "Program") => do
      let items ← Stored.sequence (fields.lookup "body")
      items.mapM (Node.ofStored nestingLimit)
    | type => .error (.notAProgram (type.getD .null).bare)
  | _ => .error .programWithoutFields

end Program

end Scriptlet
