import Scriptlet.Program

/-! The grammar of scripts, with the tree that each derivation stands for. Nothing here mentions how
scripts are read.

    program     → declaration*
    declaration → "var" IDENTIFIER ("=" expression)? ";" | statement
    statement   → "print" expression ";" | "{" declaration* "}" | expression ";"
    expression  → assignment
    assignment  → IDENTIFIER "=" assignment | equality
    equality    → comparison (("!=" | "==") comparison)*
    comparison  → term ((">" | ">=" | "<" | "<=") term)*
    term        → factor (("-" | "+") factor)*
    factor      → unary (("/" | "*") unary)*
    unary       → ("!" | "-") unary | primary
    primary     → NUMBER | STRING | "true" | "false" | "nil" | "(" expression ")" | IDENTIFIER

A repetition `x (op x)*` is a rule that recurs on its left, which is how its tree leans. -/
namespace Scriptlet.Grammar

/-- The binary levels, loosest first. -/
inductive Level where
  | equality | comparison | term | factor
  deriving DecidableEq, Repr

/-- What derives expressions. -/
inductive Category where
  | expression
  | binary (level : Level)
  | unary
  | primary
  deriving DecidableEq, Repr

namespace Level

def operators : Level → List Symbol
  | equality => [.bangEqual, .equalEqual]
  | comparison => [.greater, .greaterEqual, .less, .lessEqual]
  | term => [.minus, .plus]
  | factor => [.slash, .star]

/-- What stands between the operators of a level. -/
def operand : Level → Category
  | equality => .binary comparison
  | comparison => .binary term
  | term => .binary factor
  | factor => .unary

end Level

def prefixOperators : List Symbol := [.bang, .minus]

def literals : List TokenKind :=
  [.number, .string, .keyword .true, .keyword .false, .keyword .nil]

/-- The tokens derive from a category, and the tree is that of the derivation. -/
inductive Derives : Category → List Token → Node → Prop where
  | assign {name equals : Token} (target : name.kind = .identifier)
      (sign : equals.kind = .symbol .equal) (value : Derives .expression ts n) :
      Derives .expression (name :: equals :: ts) (.assign name n)
  | equality (inner : Derives (.binary .equality) ts n) : Derives .expression ts n
  | operand {level : Level} (inner : Derives level.operand ts n) : Derives (.binary level) ts n
  | operation {operator : Token} (left : Derives (.binary level) ts m)
      (sign : operator.kind = .symbol s) (own : s ∈ level.operators)
      (right : Derives level.operand us n) :
      Derives (.binary level) (ts ++ operator :: us) (.binary m operator n)
  | negation {operator : Token} (sign : operator.kind = .symbol s) (own : s ∈ prefixOperators)
      (inner : Derives .unary ts n) : Derives .unary (operator :: ts) (.unary operator n)
  | primary (inner : Derives .primary ts n) : Derives .unary ts n
  | literal {t : Token} (own : t.kind ∈ literals) : Derives .primary [t] (.literal t)
  | reference {t : Token} (own : t.kind = .identifier) : Derives .primary [t] (.reference t)
  | grouping {opening closing : Token} (left : opening.kind = .symbol .leftParen)
      (inner : Derives .expression ts n) (right : closing.kind = .symbol .rightParen) :
      Derives .primary (opening :: (ts ++ [closing])) (.grouping n)

mutual

/-- One declaration. Sequences of declarations may leave out stretches of tokens that are a `gap`;
with no gaps at all this is the grammar above. -/
inductive Declaration (gap : List Token → Prop) : List Token → Node → Prop where
  | bare {word name semicolon : Token} (opening : word.kind = .keyword .var)
      (named : name.kind = .identifier) (closing : semicolon.kind = .symbol .semicolon) :
      Declaration gap [word, name, semicolon] (.declare name .missing)
  | initialised {word name equals semicolon : Token} (opening : word.kind = .keyword .var)
      (named : name.kind = .identifier) (sign : equals.kind = .symbol .equal)
      (value : Derives .expression ts n) (closing : semicolon.kind = .symbol .semicolon) :
      Declaration gap (word :: name :: equals :: (ts ++ [semicolon])) (.declare name n)
  | print {word semicolon : Token} (opening : word.kind = .keyword .print)
      (value : Derives .expression ts n) (closing : semicolon.kind = .symbol .semicolon) :
      Declaration gap (word :: (ts ++ [semicolon])) (.print n)
  | block {brace close : Token} (opening : brace.kind = .symbol .leftBrace)
      (body : Declarations gap ts ns) (closing : close.kind = .symbol .rightBrace) :
      Declaration gap (brace :: (ts ++ [close])) (.block ns)
  | expression {semicolon : Token} (value : Derives .expression ts n)
      (closing : semicolon.kind = .symbol .semicolon) :
      Declaration gap (ts ++ [semicolon]) (.expression n)

inductive Declarations (gap : List Token → Prop) : List Token → List Node → Prop where
  | done : Declarations gap [] []
  | next (first : Declaration gap ts n) (others : Declarations gap us ns) :
      Declarations gap (ts ++ us) (n :: ns)
  | skip (left : gap ts) (others : Declarations gap us ns) : Declarations gap (ts ++ us) ns

end

/-- A program: declarations with nothing left out. -/
def Program (ts : List Token) (ns : List Node) : Prop := Declarations (fun _ => False) ts ns

/-- The kinds of token that a phrase of expressions may start with. -/
def opens (t : Token) : Prop :=
  t.kind ∈ literals ∨ t.kind = .identifier ∨ t.kind = .symbol .leftParen ∨
    ∃ s ∈ prefixOperators, t.kind = .symbol s

theorem Derives.opens (h : Derives c ts n) : ∃ t us, ts = t :: us ∧ opens t := by
  induction h with
  | assign target _ _ _ => exact ⟨_, _, rfl, .inr (.inl target)⟩
  | equality _ ih | operand _ ih | primary _ ih => exact ih
  | operation _ _ _ _ ih _ =>
    obtain ⟨t, us, rfl, first⟩ := ih
    exact ⟨t, _, rfl, first⟩
  | negation sign own _ _ => exact ⟨_, _, rfl, .inr (.inr (.inr ⟨_, own, sign⟩))⟩
  | literal own => exact ⟨_, _, rfl, .inl own⟩
  | reference own => exact ⟨_, _, rfl, .inr (.inl own)⟩
  | grouping left _ _ _ => exact ⟨_, _, rfl, .inr (.inr (.inl left))⟩

/-- The symbols that no expression holds. -/
def foreignSymbols : List Symbol := [.leftBrace, .rightBrace, .comma, .dot, .semicolon]

/-- A token of a kind that expressions are made of. -/
def Phrasal (t : Token) : Prop :=
  t.kind ∈ literals ∨ t.kind = .identifier ∨ ∃ s, s ∉ foreignSymbols ∧ t.kind = .symbol s

theorem Phrasal.not_endOfInput {t : Token} (h : Phrasal t) : t.kind ≠ .endOfInput := by
  intro ends
  rcases h with own | own | ⟨s, _, own⟩ <;> simp [ends, literals] at own

theorem phrasal_of_symbol {t : Token} (kind : t.kind = .symbol s) (own : s ∉ foreignSymbols) :
    Phrasal t := .inr (.inr ⟨s, own, kind⟩)

theorem Level.not_foreign {level : Level} (own : s ∈ level.operators) : s ∉ foreignSymbols := by
  cases level <;> revert own <;> cases s <;> decide

theorem Derives.phrasal (h : Derives c ts n) : ∀ t ∈ ts, Phrasal t := by
  induction h with
  | assign target sign _ ih =>
    exact List.forall_mem_cons.mpr ⟨.inr (.inl target),
      List.forall_mem_cons.mpr ⟨phrasal_of_symbol sign (by decide), ih⟩⟩
  | equality _ ih | operand _ ih | primary _ ih => exact ih
  | operation _ sign own _ left right =>
    exact List.forall_mem_append.mpr ⟨left,
      List.forall_mem_cons.mpr ⟨phrasal_of_symbol sign (Level.not_foreign own), right⟩⟩
  | negation sign own _ ih =>
    have own := (show ∀ s ∈ prefixOperators, s ∉ foreignSymbols by decide) _ own
    exact List.forall_mem_cons.mpr ⟨phrasal_of_symbol sign own, ih⟩
  | literal own => exact List.forall_mem_singleton.mpr (.inl own)
  | reference own => exact List.forall_mem_singleton.mpr (.inr (.inl own))
  | grouping left _ right ih =>
    refine List.forall_mem_cons.mpr ⟨phrasal_of_symbol left (by decide), ?_⟩
    exact List.forall_mem_append.mpr ⟨ih,
      List.forall_mem_singleton.mpr (phrasal_of_symbol right (by decide))⟩

/-- Only an identifier by itself derives a reference. -/
theorem Derives.reference_inv (h : Derives c ts (.reference name)) :
    ts = [name] ∧ name.kind = .identifier := by
  generalize tree : Node.reference name = n at h
  induction h with
  | equality _ ih | operand _ ih | primary _ ih => exact ih tree
  | reference own => cases tree; exact ⟨rfl, own⟩
  | _ => cases tree

theorem Derives.ne_nil (h : Derives c ts n) : ts ≠ [] := by
  obtain ⟨t, us, rfl, _⟩ := h.opens
  exact List.cons_ne_nil t us

theorem opens.not_rightBrace {t : Token} (h : opens t) : t.kind ≠ .symbol .rightBrace := by
  intro closing
  simp [opens, closing, literals, prefixOperators] at h

/-- A declaration starts with a token that does not close a block. -/
theorem Declaration.opens (h : Declaration gap ts n) :
    ∃ t us, ts = t :: us ∧ t.kind ≠ .symbol .rightBrace := by
  cases h with
  | bare opening _ _ | initialised opening _ _ _ _ | print opening _ _ | block opening _ _ =>
    exact ⟨_, _, rfl, by simp [opening]⟩
  | expression value _ =>
    obtain ⟨t, us, rfl, first⟩ := value.opens
    exact ⟨t, _, rfl, first.not_rightBrace⟩

theorem Declaration.ne_nil (h : Declaration gap ts n) : ts ≠ [] := by
  obtain ⟨t, us, rfl, _⟩ := h.opens
  exact List.cons_ne_nil t us

end Scriptlet.Grammar
