import Scriptlet.Proofs.Cursor.Reading

/-! Expressions read by place. -/
namespace Scriptlet.Cursor

open Scriptlet.Grammar (Category Level isOneOf_iff isLiteral_iff)
open Scriptlet.Program (isOneOf)

/-- A reader does at a place what is done with the tokens from there on, and adds no errors. -/
def Mirrors (s : TokenStream) (a : Reader α) (ts : List Token) :
    Except Obstacle (α × List Token) → Prop
  | .ok (x, rest) => Does s a ts (.ok x) [] rest
  | .error o => Does s a ts (.error (.error (o.error s.stop))) [] o.rest

namespace Mirrors

variable {s : TokenStream} {ts : List Token}

theorem pure (x : α) : Mirrors s (pure x : Reader α) ts (.ok (x, ts)) := Does.pure x

theorem bind {a : Reader α} {f : α → Reader β} {r : Except Obstacle (α × List Token)}
    {g : α × List Token → Except Obstacle (β × List Token)} (left : ts <:+ s.body)
    (first : Mirrors s a ts r)
    (next : ∀ x us, r = .ok (x, us) → us <:+ s.body → Mirrors s (f x) us (g (x, us))) :
    Mirrors s (a >>= f) ts (r >>= g) := by
  cases r with
  | error o => exact Does.bind_error first
  | ok result =>
    obtain ⟨x, us⟩ := result
    have step : Does s a ts (.ok x) [] us := first
    have later := next x us rfl (step.suffix.trans left)
    rw [Outcome.ok_bind]
    cases made : g (x, us) with
    | error o =>
      rw [made] at later
      exact step.bind later
    | ok result =>
      obtain ⟨y, rest⟩ := result
      rw [made] at later
      exact step.bind later

/-- A reader that goes on after a step goes on with the tokens behind it. -/
theorem of_step {a : Reader α} {f : α → Reader β} {r : Except Obstacle (β × List Token)}
    (step : Does s a ts (.ok x) [] us) (next : Mirrors s (f x) us r) : Mirrors s (a >>= f) ts r := by
  cases r with
  | error o => exact step.bind next
  | ok result =>
    obtain ⟨y, rest⟩ := result
    exact step.bind next

end Mirrors

section Parts

variable {s : TokenStream} {ts us rest : List Token} {turns : Nat}

theorem mirrors_fail (left : ts <:+ s.body) (cause : ParseError.Cause) :
    Mirrors s (fail s.toList cause : Reader α) ts (.error (.here cause ts)) := does_fail left cause

/-- A closing symbol, and what was read in front of it. -/
theorem mirrors_closing (left : ts <:+ s.body) (symbol : Symbol) (cause : ParseError.Cause) (x : α) :
    Mirrors s (do discard (require s.toList (.symbol symbol) cause); return x) ts
      (do let rest ← Program.require symbol cause ts; return (x, rest)) := by
  by_cases own : ∃ t us, ts = t :: us ∧ t.kind = .symbol symbol
  · obtain ⟨t, us, rfl, own⟩ := own
    simp only [Program.require, own, if_true, Outcome.ok_bind]
    exact .of_step (does_require left own cause).discard (.pure x)
  · have other : ∀ t ∈ ts.head?, t.kind ≠ .symbol symbol := by
      intro t head same
      obtain ⟨us, rfl⟩ := List.head?_eq_some_iff.mp head
      exact own ⟨t, us, rfl, same⟩
    have failed : Program.require symbol cause ts = .error (.here cause ts) := by
      cases ts with
      | nil => rfl
      | cons t ts => simp [Program.require, other t rfl]
    rw [failed]
    exact (Does.discard_error (does_not_require left other cause)).bind_error

theorem mem_map_symbol {t : Token} {operators : List Symbol} :
    t.kind ∈ operators.map TokenKind.symbol ↔ isOneOf operators t = true := by
  rw [isOneOf_iff, List.mem_map]
  constructor
  · rintro ⟨s, own, same⟩
    exact ⟨s, own, same.symm⟩
  · rintro ⟨s, own, same⟩
    exact ⟨s, own, same.symm⟩

/-- As many turns as there are tokens, and one to see that no operator follows, are enough. -/
theorem mirrors_chain {operators : List Symbol} {a : Reader Node}
    {f : List Token → Except Obstacle (Node × List Token)}
    (operand : ∀ us, us <:+ s.body → Mirrors s a us (f us))
    (shrinks : ∀ {ts n rest}, f ts = .ok (n, rest) → rest.length ≤ ts.length)
    (left : ts <:+ s.body) (enough : ts.length ≤ fuel) (n : Node) :
    Mirrors s (chain s.toList operators a (fuel + 1) n) ts
      (Program.chain operators f fuel n ts) := by
  induction fuel generalizing ts n with
  | zero =>
    obtain rfl := List.length_eq_zero_iff.mp (Nat.le_zero.mp enough)
    exact .of_step (does_not_take left headless) (.pure n)
  | succ fuel ih =>
    cases ts with
    | nil => exact .of_step (does_not_take left headless) (.pure n)
    | cons t ts =>
      unfold Program.chain
      split
      next operator =>
        refine .of_step (does_take left (mem_map_symbol.mpr operator)) ?_
        have behind := (List.suffix_cons t ts).trans left
        refine .bind behind (operand ts behind) fun right rest read within => ?_
        have shorter := shrinks read
        simp only [List.length_cons, Nat.add_le_add_iff_right] at enough
        exact ih within (by omega) _
      next other =>
        refine .of_step (does_not_take left ?_) (.pure n)
        rintro _ ⟨⟩ own
        exact other (mem_map_symbol.mp own)

end Parts

/-- The reader of a category, which may take `turns` turns in a loop. -/
def reader (tokens : List Token) (turns depth : Nat) : Category → Reader Node
  | .expression => expression tokens turns depth
  | .binary level => operand tokens turns depth level.remaining
  | .unary => operand tokens turns depth []
  | .primary => primary tokens turns depth

section Categories

variable {s : TokenStream} {turns d : Nat} {ts : List Token}

theorem reader_binary (level : Level) :
    reader s.toList turns (d + 1) (.binary level) = (do
      let left ← reader s.toList turns d level.operand
      chain s.toList level.operators (reader s.toList turns d level.operand) turns left) := by
  cases level <;> rfl

/-- What is read by place in `d` nested steps is what is read. -/
def MirrorsAt (s : TokenStream) (turns d : Nat) : Prop :=
  ∀ c ts, ts <:+ s.body → Mirrors s (reader s.toList turns d c) ts (c.read d ts)

variable (inner : MirrorsAt s turns d) (left : ts <:+ s.body)
include inner left

theorem mirrors_expression :
    Mirrors s (reader s.toList turns (d + 1) .expression) ts (Category.expression.read (d + 1) ts) := by
  rw [Grammar.read_expression]
  refine .bind left (inner (.binary .equality) ts left) fun target us _ within => ?_
  cases us with
  | nil => exact .of_step (does_not_take within headless) (.pure target)
  | cons t us =>
    by_cases sign : t.kind = .symbol .equal
    · simp only [sign, if_true]
      have behind := (List.suffix_cons t us).trans within
      refine .of_step (does_take within (List.mem_singleton.mpr sign)) ?_
      refine .bind behind (inner .expression us behind) fun value rest read _ => ?_
      cases target with
      | reference name => exact .pure _
      | _ => exact Does.throw _
    · simp only [sign, if_false]
      refine .of_step (does_not_take within ?_) (.pure target)
      rintro _ ⟨⟩ own
      exact sign (List.mem_singleton.mp own)

theorem mirrors_binary (enough : s.body.length < turns) (level : Level) :
    Mirrors s (reader s.toList turns (d + 1) (.binary level)) ts
      ((Category.binary level).read (d + 1) ts) := by
  rw [reader_binary, Grammar.read_binary]
  obtain ⟨f, rfl⟩ : ∃ f, turns = f + 1 := ⟨turns - 1, by omega⟩
  have shrinks : ∀ {ts n rest}, level.operand.read d ts = .ok (n, rest) → rest.length ≤ ts.length :=
    fun read => (Grammar.read_suffix read).length_le
  refine .bind left (inner level.operand ts left) fun target us _ within => ?_
  have fits : us.length ≤ f := by
    have := within.length_le
    omega
  have same : Program.chain level.operators (level.operand.read d) us.length target us =
      Program.chain level.operators (level.operand.read d) f target us :=
    Grammar.chain_fuel shrinks (Nat.le_refl us.length) fits
  simp only [same]
  exact mirrors_chain (inner level.operand) shrinks within fits target

theorem mirrors_unary :
    Mirrors s (reader s.toList turns (d + 1) .unary) ts (Category.unary.read (d + 1) ts) := by
  rw [Grammar.read_unary]
  split
  · exact .of_step (does_not_take left headless) (inner .primary [] left)
  next t ts =>
    split
    next operator =>
      have behind := (List.suffix_cons t ts).trans left
      refine .of_step (does_take left (mem_map_symbol.mpr operator)) ?_
      exact .bind behind (inner .unary ts behind) fun n rest _ _ => .pure _
    next other =>
      refine .of_step (does_not_take left ?_) (inner .primary (t :: ts) left)
      rintro _ ⟨⟩ own
      exact other (mem_map_symbol.mp own)

theorem mirrors_primary :
    Mirrors s (reader s.toList turns (d + 1) .primary) ts (Category.primary.read (d + 1) ts) := by
  rw [Grammar.read_primary]
  split
  · refine .of_step (does_not_take left headless) ?_
    refine .of_step (does_not_take left headless) ?_
    exact .of_step (does_not_accept left headless) (mirrors_fail left _)
  next t ts =>
    have other : ∀ {kinds : List TokenKind}, t.kind ∉ kinds →
        ∀ t' ∈ (t :: ts).head?, t'.kind ∉ kinds := by
      rintro kinds no _ ⟨⟩
      exact no
    by_cases literal : t.kind.isLiteral = true
    · rw [if_pos literal]
      exact .of_step (does_take left (isLiteral_iff.mp literal)) (.pure _)
    rw [if_neg literal]
    refine .of_step (does_not_take left (other (mt isLiteral_iff.mpr literal))) ?_
    by_cases named : t.kind = .identifier
    · rw [if_pos named]
      exact .of_step (does_take left (List.mem_singleton.mpr named)) (.pure _)
    rw [if_neg named]
    refine .of_step (does_not_take left (other (mt List.mem_singleton.mp named))) ?_
    by_cases paren : t.kind = .symbol .leftParen
    · rw [if_pos paren]
      have behind := (List.suffix_cons t ts).trans left
      refine .of_step (does_accept left (List.mem_singleton.mpr paren)) ?_
      exact .bind behind (inner .expression ts behind) fun n us _ within => mirrors_closing within _ _ _
    · rw [if_neg paren]
      exact .of_step (does_not_accept left (other (mt List.mem_singleton.mp paren)))
        (mirrors_fail left _)

end Categories

theorem mirrors_read {s : TokenStream} (enough : s.body.length < turns) (d : Nat) :
    MirrorsAt s turns d := by
  induction d with
  | zero =>
    intro c ts left
    rw [Grammar.read_zero]
    cases c <;> exact mirrors_fail left _
  | succ d ih =>
    intro c ts left
    cases c with
    | expression => exact mirrors_expression ih left
    | binary level => exact mirrors_binary ih left enough level
    | unary => exact mirrors_unary ih left
    | primary => exact mirrors_primary ih left

end Scriptlet.Cursor
