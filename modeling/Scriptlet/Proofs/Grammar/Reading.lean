import Scriptlet.Proofs.Grammar
import Scriptlet.Proofs.Outcome

/-! Reading an expression, category by category of the grammar. -/
namespace Scriptlet.Grammar

open Scriptlet.Program (chain isOneOf binaryLevels unaryOperators)

namespace Level

/-- The levels to read, as the reading of operands takes them. -/
def remaining : Level → List (List Symbol)
  | equality => binaryLevels
  | comparison => binaryLevels.drop 1
  | term => binaryLevels.drop 2
  | factor => binaryLevels.drop 3

/-- The operators that a phrase of a level may hold outside of parentheses. -/
def within : Level → List Symbol
  | factor => factor.operators
  | term => term.operators ++ factor.operators
  | comparison => comparison.operators ++ (term.operators ++ factor.operators)
  | equality => equality.operators ++ (comparison.operators ++ (term.operators ++ factor.operators))

end Level

namespace Category

/-- How a phrase of a category is read. -/
def read (depth : Nat) : Category → List Token → Except Obstacle (Node × List Token)
  | expression => Program.expression depth
  | binary level => Program.operand depth level.remaining
  | unary => Program.operand depth []
  | primary => Program.primary depth

/-- The symbols that extend a phrase when they follow it. -/
def extenders : Category → List Symbol
  | expression => .equal :: Level.equality.within
  | binary level => level.within
  | unary | primary => []

/-- The text does not extend a phrase of the category in front of it. -/
def Ends (c : Category) (rest : List Token) : Prop :=
  ∀ t ∈ rest.head?, isOneOf c.extenders t = false

end Category

theorem isOneOf_iff {symbols : List Symbol} {t : Token} :
    isOneOf symbols t = true ↔ ∃ s ∈ symbols, t.kind = .symbol s := by
  simp [isOneOf]

theorem isOneOf_append (a b : List Symbol) (t : Token) :
    isOneOf (a ++ b) t = (isOneOf a t || isOneOf b t) := by
  simp [isOneOf]

theorem isOneOf_of_kind {t : Token} (h : t.kind = .symbol s) (symbols : List Symbol) :
    isOneOf symbols t = decide (s ∈ symbols) := by
  rw [Bool.eq_iff_iff, isOneOf_iff, decide_eq_true_eq, h]
  constructor
  · rintro ⟨_, mem, same⟩
    cases same
    exact mem
  · intro mem
    exact ⟨s, mem, rfl⟩

theorem isLiteral_iff {k : TokenKind} : k.isLiteral = true ↔ k ∈ literals := by
  cases k with
  | keyword w => cases w <;> decide
  | symbol s => simp [TokenKind.isLiteral, literals]
  | _ => decide

theorem require_eq_ok {cause : ParseError.Cause} :
    Program.require s cause ts = .ok rest ↔ ∃ t, ts = t :: rest ∧ t.kind = .symbol s := by
  cases ts with
  | nil => simp [Program.require]
  | cons t ts =>
    by_cases own : t.kind = .symbol s
    · simp only [Program.require, own, if_true, Except.ok.injEq, List.cons.injEq]
      constructor
      · rintro rfl
        exact ⟨t, ⟨rfl, rfl⟩, own⟩
      · rintro ⟨_, ⟨_, same⟩, _⟩
        exact same
    · simp only [Program.require, own, if_false, reduceCtorEq, List.cons.injEq, false_iff]
      rintro ⟨_, ⟨rfl, _⟩, other⟩
      exact own other

section Reading

variable {d : Nat} {ts : List Token} {level : Level}

theorem Level.within_eq (level : Level) :
    level.within = level.operators ++ level.operand.extenders := by
  cases level <;> simp [Level.within, Level.operand, Category.extenders]

theorem Level.disjoint (own : s ∈ level.operators) : s ∉ level.operand.extenders := by
  cases level <;> cases s <;> revert own <;> decide

/-- An operator of a level is none of the tighter ones. -/
theorem Level.ends_operand {operator : Token} (sign : operator.kind = .symbol s)
    (own : s ∈ level.operators) : level.operand.Ends (operator :: rest) := by
  intro t first
  obtain rfl := Option.mem_some_iff.mp first
  rw [isOneOf_of_kind sign, decide_eq_false_iff_not]
  exact level.disjoint own

theorem Category.ends_binary :
    (Category.binary level).Ends rest ↔
      (∀ t ∈ rest.head?, isOneOf level.operators t = false) ∧ level.operand.Ends rest := by
  simp only [Category.Ends, Category.extenders, level.within_eq, isOneOf_append, Bool.or_eq_false_iff]
  constructor
  · intro h
    exact ⟨fun t first => (h t first).1, fun t first => (h t first).2⟩
  · intro h t first
    exact ⟨h.1 t first, h.2 t first⟩

theorem read_binary : (Category.binary level).read (d + 1) ts = (do
    let (left, rest) ← level.operand.read d ts
    chain level.operators (level.operand.read d) rest.length left rest) := by
  cases level <;> rfl

theorem read_expression : Category.expression.read (d + 1) ts = (do
    let (target, rest) ← (Category.binary .equality).read d ts
    match rest with
    | [] => return (target, [])
    | t :: after =>
      if t.kind = .symbol .equal then
        let (value, rest) ← Category.expression.read d after
        match target with
        | .reference name => return (.assign name value, rest)
        | _ => throw ⟨.assignmentTarget, t :: after, rest⟩
      else return (target, t :: after)) := rfl

theorem read_unary : Category.unary.read (d + 1) ts = (match ts with
    | [] => Category.primary.read d []
    | t :: rest =>
      if isOneOf prefixOperators t then do
        let (inner, rest) ← Category.unary.read d rest
        return (.unary t inner, rest)
      else Category.primary.read d (t :: rest)) := rfl

theorem read_primary : Category.primary.read (d + 1) ts = (match ts with
    | [] => .error (.here .expression [])
    | t :: rest =>
      if t.kind.isLiteral then return (.literal t, rest)
      else if t.kind = .identifier then return (.reference t, rest)
      else if t.kind = .symbol .leftParen then do
        let (inner, rest) ← Category.expression.read d rest
        let rest ← Program.require .rightParen .closingParen rest
        return (.grouping inner, rest)
      else .error (.here .expression (t :: rest))) := rfl

theorem read_zero (c : Category) : c.read 0 ts = .error (.here .tooDeep ts) := by
  cases c <;> rfl

end Reading

end Scriptlet.Grammar
