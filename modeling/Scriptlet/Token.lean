/-! Tokens: the kinds of word a script is made of, with the text and the line each was read from.
Every kind has a code, the name by which stored programs refer to it; `TokenKind.ofCode?_code` says
that the code determines the kind. -/
namespace Scriptlet

/-- Punctuation and operators. -/
inductive Symbol where
  | leftParen | rightParen | leftBrace | rightBrace | comma | dot | minus | plus | semicolon
  | slash | star
  | bang | bangEqual | equal | equalEqual | greater | greaterEqual | less | lessEqual
  deriving DecidableEq, Repr

/-- Reserved words. Several are reserved without having a meaning yet. -/
inductive Keyword where
  | and | classWord | else | false | for | func | if | nil | or | print | return | super | this
  | true | var | while
  deriving DecidableEq, Repr

inductive TokenKind where
  | symbol (s : Symbol)
  | identifier | string | number
  | keyword (w : Keyword)
  | endOfInput
  | invalid
  | blank
  deriving DecidableEq, Repr

structure Token where
  kind : TokenKind
  lexeme : String
  line : Int
  deriving DecidableEq, Repr

namespace Symbol

def all : List Symbol :=
  [leftParen, rightParen, leftBrace, rightBrace, comma, dot, minus, plus, semicolon, slash, star,
   bang, bangEqual, equal, equalEqual, greater, greaterEqual, less, lessEqual]

def text : Symbol → List Char
  | leftParen => ['('] | rightParen => [')'] | leftBrace => ['{'] | rightBrace => ['}']
  | comma => [','] | dot => ['.'] | minus => ['-'] | plus => ['+'] | semicolon => [';']
  | slash => ['/'] | star => ['*']
  | bang => ['!'] | bangEqual => ['!', '='] | equal => ['='] | equalEqual => ['=', '=']
  | greater => ['>'] | greaterEqual => ['>', '='] | less => ['<'] | lessEqual => ['<', '=']

def code : Symbol → String
  | leftParen => "LEFT_PAREN" | rightParen => "RIGHT_PAREN" | leftBrace => "LEFT_BRACE"
  | rightBrace => "RIGHT_BRACE" | comma => "COMMA" | dot => "DOT" | minus => "MINUS"
  | plus => "PLUS" | semicolon => "SEMICOLON" | slash => "SLASH" | star => "STAR"
  | bang => "BANG" | bangEqual => "BANG_EQUAL" | equal => "EQUAL" | equalEqual => "EQUAL_EQUAL"
  | greater => "GREATER" | greaterEqual => "GREATER_EQUAL" | less => "LESS"
  | lessEqual => "LESS_EQUAL"

/-- The symbol that a character alone makes, whatever follows. -/
def ofChar? : Char → Option Symbol
  | '(' => some leftParen | ')' => some rightParen | '{' => some leftBrace
  | '}' => some rightBrace | ',' => some comma | '.' => some dot | '-' => some minus
  | '+' => some plus | ';' => some semicolon | '/' => some slash | '*' => some star
  | _ => none

/-- The symbols of a character that may be doubled up with an equals sign: alone, and with it. -/
def pairOfChar? : Char → Option (Symbol × Symbol)
  | '!' => some (bang, bangEqual)
  | '=' => some (equal, equalEqual)
  | '>' => some (greater, greaterEqual)
  | '<' => some (less, lessEqual)
  | _ => none

end Symbol

namespace Keyword

def all : List Keyword :=
  [.and, .classWord, .else, .false, .for, .func, .if, .nil, .or, .print, .return, .super, .this,
   .true, .var, .while]

def text : Keyword → String
  | .and => "and" | .classWord => "class" | .else => "else" | .false => "false" | .for => "for"
  | .func => "func" | .if => "if" | .nil => "nil" | .or => "or" | .print => "print"
  | .return => "return" | .super => "super" | .this => "this" | .true => "true" | .var => "var"
  | .while => "while"

def code : Keyword → String
  | .and => "AND" | .classWord => "CLASS" | .else => "ELSE" | .false => "FALSE" | .for => "FOR"
  | .func => "FUNC" | .if => "IF" | .nil => "NIL" | .or => "OR" | .print => "PRINT"
  | .return => "RETURN" | .super => "SUPER" | .this => "THIS" | .true => "TRUE" | .var => "VAR"
  | .while => "WHILE"

def ofText? (text : String) : Option Keyword := all.find? (·.text == text)

theorem mem_all (w : Keyword) : w ∈ all := by cases w <;> decide

theorem ofText?_text (w : Keyword) : ofText? w.text = some w := by cases w <;> decide

theorem text_of_ofText? {s : String} {w : Keyword} (h : ofText? s = some w) : w.text = s := by
  simpa using List.find?_some h

theorem ofText?_eq_some_iff {s : String} {w : Keyword} : ofText? s = some w ↔ w.text = s :=
  ⟨text_of_ofText?, fun h => h ▸ ofText?_text w⟩

end Keyword

namespace TokenKind

def all : List TokenKind :=
  Symbol.all.map symbol ++ [identifier, string, number] ++ Keyword.all.map keyword ++
    [endOfInput, invalid, blank]

def code : TokenKind → String
  | symbol s => s.code
  | identifier => "IDENTIFIER" | string => "STRING" | number => "NUMBER"
  | keyword w => w.code
  | endOfInput => "EOF" | invalid => "INVALID" | blank => "BLANK"

def ofCode? (code : String) : Option TokenKind := all.find? (·.code == code)

theorem mem_all (k : TokenKind) : k ∈ all := by
  cases k with
  | symbol s => cases s <;> decide
  | keyword w => cases w <;> decide
  | _ => decide

theorem ofCode?_code (k : TokenKind) : ofCode? k.code = some k := by
  cases k with
  | symbol s => cases s <;> decide
  | keyword w => cases w <;> decide
  | _ => decide

theorem code_of_ofCode? {s : String} {k : TokenKind} (h : ofCode? s = some k) : k.code = s := by
  simpa using List.find?_some h

theorem ofCode?_eq_some_iff {s : String} {k : TokenKind} : ofCode? s = some k ↔ k.code = s :=
  ⟨code_of_ofCode?, fun h => h ▸ ofCode?_code k⟩

/-- The kinds of token that stand for a value by themselves. -/
def isLiteral : TokenKind → Bool
  | number | string | keyword .true | keyword .false | keyword .nil => true
  | _ => false

/-- Words that open a statement, or are reserved to. -/
def opensStatement : TokenKind → Bool
  | keyword .classWord | keyword .func | keyword .var | keyword .for | keyword .if | keyword .while
  | keyword .print | keyword .return => true
  | _ => false

end TokenKind

end Scriptlet
