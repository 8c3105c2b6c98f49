import Scriptlet.Proofs.Grammar.Soundness

/-! What derives is read. A phrase is read off the front of any text that does not extend it, once
enough nested steps are allowed. How many is a threshold that belongs to the derivation and not to
the text behind it: below the threshold depth is what stands in the way, whatever follows. -/
namespace Scriptlet.Grammar

open Scriptlet.Program

/-- Reading gave up for want of depth. -/
def Short (outcome : Except Obstacle α) : Prop := ∃ o, outcome = .error o ∧ o.cause = .tooDeep

theorem Short.bind {x : Except Obstacle α} (h : Short x) (f : α → Except Obstacle β) :
    Short (x >>= f) := by
  obtain ⟨o, rfl, deep⟩ := h
  exact ⟨o, rfl, deep⟩

/-- A phrase is read wherever nothing extends it, from `k` nested steps on. -/
structure Reads (c : Category) (ts : List Token) (n : Node) (k : Nat) : Prop where
  enough {d rest} : k ≤ d → c.Ends rest → c.read d (ts ++ rest) = .ok (n, rest)
  short {d rest} : d < k → c.Ends rest → Short (c.read d (ts ++ rest))

/-- A phrase of a binary level is read as a left operand, with which the level goes on. -/
structure ReadsLeft (level : Level) (ts : List Token) (n : Node) (k : Nat) : Prop where
  enough {d rest} : k ≤ d → level.operand.Ends rest →
    (Category.binary level).read (d + 1) (ts ++ rest) =
      chain level.operators (level.operand.read d) rest.length n rest
  short {d rest} : d < k → level.operand.Ends rest →
    Short ((Category.binary level).read (d + 1) (ts ++ rest))

theorem ends_of_kind {t : Token} (kind : t.kind = .symbol s) {c : Category}
    (foreign : s ∉ c.extenders) : c.Ends (t :: rest) := by
  intro t' same
  obtain rfl := Option.mem_some_iff.mp same
  rw [isOneOf_of_kind kind, decide_eq_false_iff_not]
  exact foreign

theorem read_zero_short (c : Category) (ts : List Token) : Short (c.read 0 ts) :=
  ⟨_, read_zero c, rfl⟩

theorem isOneOf_eq_false {t : Token} (h : ∀ s ∈ symbols, t.kind ≠ .symbol s) :
    isOneOf symbols t = false := by
  rw [Bool.eq_false_iff, ne_eq, isOneOf_iff]
  rintro ⟨s, mem, kind⟩
  exact h s mem kind

/-- What a primary phrase may start with is no operator. -/
theorem not_prefix {t : Token}
    (kind : t.kind ∈ literals ∨ t.kind = .identifier ∨ t.kind = .symbol .leftParen) :
    isOneOf prefixOperators t = false := by
  apply isOneOf_eq_false
  intro s mem same
  rw [same] at kind
  revert mem
  cases s <;> simp [literals, prefixOperators] at kind ⊢

/-- A primary phrase does not look like an operation on one. -/
theorem Derives.primary_opens (h : Derives .primary ts n) :
    ∃ t us, ts = t :: us ∧ isOneOf prefixOperators t = false := by
  cases h with
  | literal own => exact ⟨_, _, rfl, not_prefix (.inl own)⟩
  | reference own => exact ⟨_, _, rfl, not_prefix (.inr (.inl own))⟩
  | grouping left _ _ => exact ⟨_, _, rfl, not_prefix (.inr (.inr left))⟩

/-- More turns than there are tokens make no difference. -/
theorem chain_fuel {operand : List Token → Except Obstacle (Node × List Token)}
    (shrinks : ∀ {ts n rest}, operand ts = .ok (n, rest) → rest.length ≤ ts.length)
    (hf : ts.length ≤ f) (hg : ts.length ≤ g) :
    chain operators operand f m ts = chain operators operand g m ts := by
  induction f generalizing g m ts with
  | zero =>
    obtain rfl := List.length_eq_zero_iff.mp (Nat.le_zero.mp hf)
    cases g <;> rfl
  | succ f ih =>
    cases ts with
    | nil => cases g <;> rfl
    | cons t ts =>
      obtain ⟨g, rfl⟩ : ∃ g', g = g' + 1 := ⟨g - 1, by simp only [List.length_cons] at hg; omega⟩
      simp only [List.length_cons, Nat.add_le_add_iff_right] at hf hg
      unfold chain
      split
      · cases first : operand ts with
        | error o => rfl
        | ok result =>
          have := shrinks first
          exact ih (by omega) (by omega)
      · rfl

theorem chain_stops {operand : List Token → Except Obstacle (Node × List Token)}
    (ends : (Category.binary level).Ends rest) :
    chain level.operators operand fuel m rest = .ok (m, rest) := by
  cases fuel with
  | zero => rfl
  | succ fuel =>
    cases rest with
    | nil => rfl
    | cons t rest =>
      unfold chain
      rw [(Category.ends_binary.mp ends).1 t rfl]
      rfl

section Rules

/-- A category takes one step of its own, and then reads with one step less. -/
theorem Reads.of_succ
    (enough : ∀ {d rest}, k ≤ d → c.Ends rest → c.read (d + 1) (ts ++ rest) = .ok (n, rest))
    (short : ∀ {d rest}, d < k → c.Ends rest → Short (c.read (d + 1) (ts ++ rest))) :
    Reads c ts n (k + 1) := by
  constructor
  · intro d rest le ends
    cases d with
    | zero => exact absurd le (Nat.not_succ_le_zero k)
    | succ d => exact enough (Nat.le_of_succ_le_succ le) ends
  · intro d rest lt ends
    cases d with
    | zero => exact read_zero_short c _
    | succ d => exact short (Nat.lt_of_succ_lt_succ lt) ends

theorem Reads.literal {t : Token} (own : t.kind ∈ literals) :
    Reads .primary [t] (.literal t) 1 := by
  apply Reads.of_succ
  · intro d rest _ _
    simp [read_primary, isLiteral_iff.mpr own, pure, Except.pure]
  · intro d rest lt _
    exact absurd lt (Nat.not_lt_zero d)

theorem Reads.reference {t : Token} (own : t.kind = .identifier) :
    Reads .primary [t] (.reference t) 1 := by
  apply Reads.of_succ
  · intro d rest _ _
    simp [read_primary, own, TokenKind.isLiteral, pure, Except.pure]
  · intro d rest lt _
    exact absurd lt (Nat.not_lt_zero d)

theorem read_grouping {opening : Token} (left : opening.kind = .symbol .leftParen) (d : Nat)
    (ts : List Token) : Category.primary.read (d + 1) (opening :: ts) = (do
      let (inner, rest) ← Category.expression.read d ts
      let rest ← require .rightParen .closingParen rest
      return (.grouping inner, rest)) := by
  simp [read_primary, left, TokenKind.isLiteral]

theorem Reads.grouping {opening closing : Token} (left : opening.kind = .symbol .leftParen)
    (inner : Reads .expression ts n k) (right : closing.kind = .symbol .rightParen) :
    Reads .primary (opening :: (ts ++ [closing])) (.grouping n) (k + 1) := by
  have ends : ∀ rest, Category.expression.Ends (closing :: rest) :=
    fun rest => ends_of_kind right (by decide)
  have whole : ∀ rest, opening :: (ts ++ [closing]) ++ rest = opening :: (ts ++ closing :: rest) := by
    intro rest
    rw [List.cons_append, List.append_assoc, List.singleton_append]
  apply Reads.of_succ
  · intro d rest le _
    rw [whole, read_grouping left, inner.enough le (ends rest)]
    simp [require, right, bind, Except.bind, pure, Except.pure]
  · intro d rest lt _
    rw [whole, read_grouping left]
    exact (inner.short lt (ends rest)).bind _

theorem Reads.primary (derived : Derives .primary ts n) (inner : Reads .primary ts n k) :
    Reads .unary ts n (k + 1) := by
  have steps : ∀ d rest, Category.unary.read (d + 1) (ts ++ rest) =
      Category.primary.read d (ts ++ rest) := by
    intro d rest
    obtain ⟨t, us, rfl, other⟩ := derived.primary_opens
    simp [read_unary, other]
  have ends : ∀ rest, Category.primary.Ends rest := fun rest t _ => rfl
  apply Reads.of_succ
  · intro d rest le _
    rw [steps]
    exact inner.enough le (ends rest)
  · intro d rest lt _
    rw [steps]
    exact inner.short lt (ends rest)

theorem read_negation {operator : Token} (sign : operator.kind = .symbol s)
    (own : s ∈ prefixOperators) (d : Nat) (ts : List Token) :
    Category.unary.read (d + 1) (operator :: ts) = (do
      let (inner, rest) ← Category.unary.read d ts
      return (.unary operator inner, rest)) := by
  rw [read_unary]
  simp [isOneOf_of_kind sign, own]

theorem Reads.negation {operator : Token} (sign : operator.kind = .symbol s)
    (own : s ∈ prefixOperators) (inner : Reads .unary ts n k) :
    Reads .unary (operator :: ts) (.unary operator n) (k + 1) := by
  apply Reads.of_succ
  · intro d rest le ends
    rw [List.cons_append, read_negation sign own, inner.enough le ends]
    rfl
  · intro d rest lt ends
    rw [List.cons_append, read_negation sign own]
    exact (inner.short lt ends).bind _

theorem ReadsLeft.operand (level : Level) (inner : Reads level.operand ts n k) :
    ReadsLeft level ts n k := by
  constructor
  · intro d rest le ends
    rw [read_binary, inner.enough le ends]
    rfl
  · intro d rest lt ends
    rw [read_binary]
    exact (inner.short lt ends).bind _

theorem chain_operation {operator : Token} (sign : operator.kind = .symbol s)
    (own : s ∈ operators) (operand : List Token → Except Obstacle (Node × List Token))
    (fuel : Nat) (m : Node) (ts : List Token) :
    chain operators operand (fuel + 1) m (operator :: ts) = (do
      let (right, rest) ← operand ts
      chain operators operand fuel (.binary m operator right) rest) := by
  rw [chain]
  simp [isOneOf_of_kind sign, own]

/-- The level goes on behind its left operand, whatever that was read from. -/
theorem ReadsLeft.operation {operator : Token} (left : ReadsLeft level ts m k)
    (sign : operator.kind = .symbol s) (own : s ∈ level.operators)
    (right : Reads level.operand us n j) :
    ReadsLeft level (ts ++ operator :: us) (.binary m operator n) (max k j) := by
  have seam : ∀ rest, level.operand.Ends (operator :: rest) := fun _ => Level.ends_operand sign own
  constructor
  · intro d rest le ends
    rw [List.append_assoc, List.cons_append, left.enough (by omega) (seam _), List.length_cons,
      chain_operation sign own, right.enough (by omega) ends]
    exact chain_fuel (fun read => (read_suffix read).length_le) (by simp) (Nat.le_refl _)
  · intro d rest lt ends
    rw [List.append_assoc, List.cons_append]
    by_cases le : k ≤ d
    · rw [left.enough le (seam _), List.length_cons, chain_operation sign own]
      exact (right.short (by omega) ends).bind _
    · exact left.short (by omega) (seam _)

theorem ReadsLeft.reads (h : ReadsLeft level ts n k) : Reads (.binary level) ts n (k + 1) := by
  apply Reads.of_succ
  · intro d rest le ends
    rw [h.enough le (Category.ends_binary.mp ends).2]
    exact chain_stops ends
  · intro d rest lt ends
    exact h.short lt (Category.ends_binary.mp ends).2

/-- What ends an expression neither goes on with a level nor is an equals sign. -/
theorem ends_expression (ends : Category.expression.Ends rest) :
    (Category.binary .equality).Ends rest ∧ ∀ t ∈ rest.head?, t.kind ≠ .symbol .equal := by
  constructor
  · intro t first
    have other := ends t first
    simp only [Category.extenders, isOneOf, List.any_cons, Bool.or_eq_false_iff] at other
    exact other.2
  · intro t first
    have other := ends t first
    simp only [Category.extenders, isOneOf, List.any_cons, Bool.or_eq_false_iff] at other
    exact of_decide_eq_false other.1

theorem Reads.equality (inner : Reads (.binary .equality) ts n k) :
    Reads .expression ts n (k + 1) := by
  apply Reads.of_succ
  · intro d rest le ends
    obtain ⟨below, other⟩ := ends_expression ends
    rw [read_expression, inner.enough le below]
    cases rest with
    | nil => rfl
    | cons t rest => simp [bind, Except.bind, pure, Except.pure, other t rfl]
  · intro d rest lt ends
    rw [read_expression]
    exact (inner.short lt (ends_expression ends).1).bind _

theorem read_assign {name equals : Token} (sign : equals.kind = .symbol .equal)
    (target : (Category.binary .equality).read d (name :: equals :: ts) =
      .ok (.reference name, equals :: ts)) :
    Category.expression.read (d + 1) (name :: equals :: ts) = (do
      let (value, rest) ← Category.expression.read d ts
      return (.assign name value, rest)) := by
  rw [read_expression, target]
  simp [bind, Except.bind, sign]

/-- The target is read as an operand first; the equals sign ends it. -/
theorem Reads.assign {name equals : Token}
    (target : Reads (.binary .equality) [name] (.reference name) k)
    (sign : equals.kind = .symbol .equal) (value : Reads .expression ts n j) :
    Reads .expression (name :: equals :: ts) (.assign name n) (max k j + 1) := by
  have seam : ∀ rest, (Category.binary .equality).Ends (equals :: rest) :=
    fun _ => ends_of_kind sign (by decide)
  apply Reads.of_succ
  · intro d rest le ends
    have first := target.enough (d := d) (by omega) (seam (ts ++ rest))
    rw [List.cons_append, List.cons_append, read_assign sign first, value.enough (by omega) ends]
    rfl
  · intro d rest lt ends
    by_cases le : k ≤ d
    · have first := target.enough le (seam (ts ++ rest))
      rw [List.cons_append, List.cons_append, read_assign sign first]
      exact (value.short (by omega) ends).bind _
    · rw [read_expression]
      exact (target.short (by omega) (seam (ts ++ rest))).bind _

/-- A name by itself is a phrase of every level. -/
theorem reads_name {name : Token} (named : name.kind = .identifier) :
    ∃ k, Reads (.binary .equality) [name] (.reference name) k := by
  have unary := (Reads.reference named).primary (.reference named)
  have factor := (ReadsLeft.operand .factor unary).reads
  have term := (ReadsLeft.operand .term factor).reads
  have comparison := (ReadsLeft.operand .comparison term).reads
  exact ⟨_, (ReadsLeft.operand .equality comparison).reads⟩

end Rules

/-- What the induction over derivations carries: a phrase of a binary level may still go on. -/
def Settles : Category → List Token → Node → Prop
  | .binary level, ts, n => ∃ k, ReadsLeft level ts n k
  | c, ts, n => ∃ k, Reads c ts n k

theorem Settles.reads (h : Settles c ts n) : ∃ k, Reads c ts n k := by
  cases c with
  | binary level =>
    obtain ⟨k, left⟩ := h
    exact ⟨k + 1, left.reads⟩
  | _ => exact h

theorem Derives.settles (h : Derives c ts n) : Settles c ts n := by
  induction h with
  | assign target sign _ value =>
    obtain ⟨k, name⟩ := reads_name target
    obtain ⟨j, value⟩ := value.reads
    exact ⟨_, name.assign sign value⟩
  | equality _ inner =>
    obtain ⟨k, inner⟩ := inner.reads
    exact ⟨_, inner.equality⟩
  | operand _ inner =>
    obtain ⟨k, inner⟩ := inner.reads
    exact ⟨_, .operand _ inner⟩
  | operation _ sign own _ left right =>
    obtain ⟨k, left⟩ := left
    obtain ⟨j, right⟩ := right.reads
    exact ⟨_, left.operation sign own right⟩
  | negation sign own _ inner =>
    obtain ⟨k, inner⟩ := inner.reads
    exact ⟨_, inner.negation sign own⟩
  | primary derived inner =>
    obtain ⟨k, inner⟩ := inner.reads
    exact ⟨_, inner.primary derived⟩
  | literal own => exact ⟨_, .literal own⟩
  | reference own => exact ⟨_, .reference own⟩
  | grouping left _ right inner =>
    obtain ⟨k, inner⟩ := inner.reads
    exact ⟨_, .grouping left inner right⟩

/-- Each derivation has its threshold. -/
theorem Derives.reads (h : Derives c ts n) : ∃ k, Reads c ts n k := h.settles.reads

/-- Somewhere depth stood in the way. -/
def Deep (os : List Obstacle) : Prop := ∃ o ∈ os, o.cause = .tooDeep

theorem Deep.left (h : Deep os) (qs : List Obstacle) : Deep (os ++ qs) := by
  obtain ⟨o, mem, deep⟩ := h
  exact ⟨o, List.mem_append_left qs mem, deep⟩

theorem Deep.right (h : Deep qs) (os : List Obstacle) : Deep (os ++ qs) := by
  obtain ⟨o, mem, deep⟩ := h
  exact ⟨o, List.mem_append_right os mem, deep⟩

theorem Deep.of_short {a : Attempt} (h : Short a.outcome) : Deep a.settle.obstacles := by
  obtain ⟨o, outcome, deep⟩ := h
  rw [settle_error outcome]
  exact ⟨o, by simp, deep⟩

theorem Deep.of_inner {a : Attempt} (h : Deep a.inner) : Deep a.settle.obstacles := by
  cases outcome : a.outcome with
  | ok result =>
    rw [settle_ok outcome]
    exact h
  | error o =>
    rw [settle_error outcome]
    exact h.left [o]

/-- A declaration is read in front of any text, from `k` levels of blocks on. -/
structure Declares (ts : List Token) (n : Node) (k : Nat) : Prop where
  enough {l rest} : k ≤ l → declaration l (ts ++ rest) = ⟨[], .ok (n, rest)⟩
  short {l rest} : l < k → Deep (declaration l (ts ++ rest)).settle.obstacles

/-- A sequence of declarations may end with the text, and not in front of a declaration. -/
structure Passes (done : List Token → Bool) : Prop where
  stops : done [] = true
  goes {t ts} : t.kind ≠ .symbol .rightBrace → done (t :: ts) = false

/-- A sequence of declarations is read in front of any text, with which reading goes on. -/
structure DeclaresAll (ts : List Token) (ns : List Node) (k : Nat) : Prop where
  enough {l done rest fuel} : k ≤ l → Passes done → (ts ++ rest).length ≤ fuel →
    many (declaration l) done fuel (ts ++ rest) =
      let others := many (declaration l) done rest.length rest
      ⟨ns ++ others.statements, others.obstacles, others.rest⟩
  short {l done rest fuel} : l < k → Passes done → (ts ++ rest).length ≤ fuel →
    Deep (many (declaration l) done fuel (ts ++ rest)).obstacles

theorem passes_blockDone : Passes blockDone where
  stops := rfl
  goes other := by simp [blockDone, other]

theorem passes_isEmpty : Passes List.isEmpty where
  stops := rfl
  goes _ := rfl

/-- More turns than there are tokens make no difference. -/
theorem Faithful.many_fuel {read : List Token → Attempt} (faithful : Faithful read)
    (stops : done [] = true) (hf : ts.length ≤ f) (hg : ts.length ≤ g) :
    many read done f ts = many read done g ts := by
  induction f generalizing g ts with
  | zero =>
    obtain rfl := List.length_eq_zero_iff.mp (Nat.le_zero.mp hf)
    rw [many_done stops, many_done stops]
  | succ f ih =>
    cases going : done ts with
    | true => rw [many_done going, many_done going]
    | false =>
      cases ts with
      | nil => cases stops.symm.trans going
      | cons t ts =>
        obtain ⟨g, rfl⟩ : ∃ g', g = g' + 1 := ⟨g - 1, by simp only [List.length_cons] at hg; omega⟩
        have shorter := (faithful.settle_suffix t ts).length_le
        simp only [List.length_cons, Nat.add_le_add_iff_right] at hf hg
        have others : many read done f (read (t :: ts)).settle.rest =
            many read done g (read (t :: ts)).settle.rest := ih (by omega) (by omega)
        rw [many_next going, many_next going]
        simp only [others]

theorem Reads.terminated (make : Node → Node) (cause : ParseError.Cause) {semicolon : Token}
    (value : Reads .expression ts v k) (closing : semicolon.kind = .symbol .semicolon) :
    (k ≤ depth → terminated make cause depth (ts ++ semicolon :: rest) = .ok (make v, rest)) ∧
      (depth < k → Short (terminated make cause depth (ts ++ semicolon :: rest))) := by
  have ends : Category.expression.Ends (semicolon :: rest) := ends_of_kind closing (by decide)
  constructor
  · intro le
    have first : Program.expression depth _ = _ := value.enough le ends
    simp [Program.terminated, first, require, closing, bind, Except.bind, pure, Except.pure]
  · intro lt
    have first : Short (Program.expression depth _) := value.short lt ends
    exact first.bind _

theorem Reads.initialised {name equals semicolon : Token} (named : name.kind = .identifier)
    (sign : equals.kind = .symbol .equal) (value : Reads .expression ts v k)
    (closing : semicolon.kind = .symbol .semicolon) :
    (k ≤ depth → variableDeclaration depth (name :: equals :: (ts ++ semicolon :: rest)) =
        .ok (.declare name v, rest)) ∧
      (depth < k →
        Short (variableDeclaration depth (name :: equals :: (ts ++ semicolon :: rest)))) := by
  have ends : Category.expression.Ends (semicolon :: rest) := ends_of_kind closing (by decide)
  constructor
  · intro le
    have first : Program.expression depth _ = _ := value.enough le ends
    simp [variableDeclaration, named, initialValue, sign, first, require, closing, bind, Except.bind,
      pure, Except.pure]
  · intro lt
    have first : Short (Program.expression depth _) := value.short lt ends
    simp only [variableDeclaration, named, initialValue, sign, if_true]
    exact first.bind _

/-- What starts no other statement starts an expression. -/
theorem declaration_other {ts : List Token} (other : ∀ t ∈ ts.head?, t.kind ≠ .keyword .var ∧
      t.kind ≠ .keyword .print ∧ t.kind ≠ .symbol .leftBrace) (l : Nat) :
    declaration (l + 1) ts =
      ⟨[], terminated .expression .endOfExpression (stepsPerBlock * (l + 1)) ts⟩ := by
  cases ts with
  | nil => rfl
  | cons t ts =>
    simp only [declaration]
    split
    next kind => exact absurd kind (other t rfl).1
    next kind => exact absurd kind (other t rfl).2.1
    next kind => exact absurd kind (other t rfl).2.2
    · rfl

theorem declaration_expression (first : opens t) (l : Nat) (ts : List Token) :
    declaration (l + 1) (t :: ts) =
      ⟨[], terminated .expression .endOfExpression (stepsPerBlock * (l + 1)) (t :: ts)⟩ := by
  refine declaration_other ?_ l
  rintro _ ⟨⟩
  refine ⟨?_, ?_, ?_⟩ <;> intro kind <;> simp [opens, literals, prefixOperators, kind] at first

/-- A brace opens a block. -/
theorem declaration_block {brace : Token} (opening : brace.kind = .symbol .leftBrace) (l : Nat)
    (ts : List Token) : declaration (l + 1) (brace :: ts) =
      let body := many (declaration l) blockDone ts.length ts
      ⟨body.obstacles, do
        let rest ← require .rightBrace .endOfBlock body.rest
        return (.block body.statements, rest)⟩ := by
  simp only [declaration, opening]

/-- From a threshold in nested steps to one in levels of blocks. -/
theorem declares_of_depth {x : Nat → List Token → Except Obstacle (Node × List Token)}
    (threshold : ∀ depth rest, (k ≤ depth → x depth rest = .ok (n, rest)) ∧
      (depth < k → Short (x depth rest)))
    (steps : ∀ l rest, declaration (l + 1) (ts ++ rest) = ⟨[], x (stepsPerBlock * (l + 1)) rest⟩) :
    ∃ j, Declares ts n j := by
  refine ⟨max 1 ((k + 2) / 3), ?_⟩
  constructor
  · intro l rest le
    obtain ⟨l, rfl⟩ : ∃ l', l = l' + 1 := ⟨l - 1, by omega⟩
    rw [steps, (threshold _ rest).1 (by simp only [stepsPerBlock]; omega)]
  · intro l rest lt
    cases l with
    | zero => exact .of_short ⟨_, rfl, rfl⟩
    | succ l =>
      rw [steps]
      exact .of_short ((threshold _ rest).2 (by simp only [stepsPerBlock]; omega))

theorem DeclaresAll.block {brace close : Token} (opening : brace.kind = .symbol .leftBrace)
    (body : DeclaresAll ts ns k) (closing : close.kind = .symbol .rightBrace) :
    Declares (brace :: (ts ++ [close])) (.block ns) (k + 1) := by
  have steps : ∀ l rest, declaration (l + 1) (brace :: (ts ++ [close]) ++ rest) =
      let body := many (declaration l) blockDone (ts ++ close :: rest).length (ts ++ close :: rest)
      ⟨body.obstacles, do
        let rest ← require .rightBrace .endOfBlock body.rest
        return (.block body.statements, rest)⟩ := by
    intro l rest
    rw [List.cons_append, List.append_assoc]
    exact declaration_block opening l (ts ++ close :: rest)
  constructor
  · intro l rest le
    obtain ⟨l, rfl⟩ : ∃ l', l = l' + 1 := ⟨l - 1, by omega⟩
    have ended : blockDone (close :: rest) = true := by simp [blockDone, closing]
    rw [steps, body.enough (by omega) passes_blockDone (Nat.le_refl _), many_done ended]
    simp [require, closing, bind, Except.bind, pure, Except.pure]
  · intro l rest lt
    cases l with
    | zero => exact .of_short ⟨_, rfl, rfl⟩
    | succ l =>
      rw [steps]
      exact .of_inner (body.short (by omega) passes_blockDone (Nat.le_refl _))

theorem DeclaresAll.done : DeclaresAll [] [] 0 where
  enough _ passes enough := (declaration_faithful _).many_fuel passes.stops enough (Nat.le_refl _)
  short lt := absurd lt (Nat.not_lt_zero _)

theorem Declares.next (opens : ∃ t vs, ts = t :: vs ∧ t.kind ≠ .symbol .rightBrace)
    (first : Declares ts n k) (others : DeclaresAll us ns j) :
    DeclaresAll (ts ++ us) (n :: ns) (max k j) := by
  obtain ⟨t, vs, rfl, other⟩ := opens
  have steps : ∀ {l done rest fuel}, Passes done → (t :: vs ++ us ++ rest).length ≤ fuel →
      ∃ f, (us ++ rest).length ≤ f ∧ many (declaration l) done fuel (t :: vs ++ us ++ rest) =
        let first := (declaration l (t :: vs ++ (us ++ rest))).settle
        let others := many (declaration l) done f first.rest
        ⟨first.statements ++ others.statements, first.obstacles ++ others.obstacles, others.rest⟩ := by
    intro l done rest fuel passes le
    simp only [List.cons_append, List.length_cons, List.length_append] at le
    obtain ⟨f, rfl⟩ : ∃ f, fuel = f + 1 := ⟨fuel - 1, by omega⟩
    refine ⟨f, by simp only [List.length_append]; omega, ?_⟩
    rw [List.append_assoc]
    exact many_next (passes.goes other)
  constructor
  · intro l done rest fuel le passes enough
    obtain ⟨f, enough, same⟩ := steps (l := l) passes enough
    rw [same, first.enough (by omega)]
    simp only [Attempt.settle]
    rw [others.enough (by omega) passes enough]
    rfl
  · intro l done rest fuel lt passes enough
    obtain ⟨f, enough, same⟩ := steps (l := l) passes enough
    rw [same]
    by_cases le : k ≤ l
    · rw [first.enough le]
      exact Deep.right (others.short (by omega) passes enough) []
    · exact (first.short (by omega)).left _

mutual

theorem Declaration.declares (h : Declaration (fun _ => False) ts n) : ∃ k, Declares ts n k := by
  cases h with
  | bare opening named closing =>
    refine declares_of_depth (k := 0) (x := fun _ rest => .ok (_, rest))
      (fun depth _ => ⟨fun _ => rfl, fun lt => absurd lt (Nat.not_lt_zero depth)⟩) ?_
    intro l rest
    simp [declaration, opening, variableDeclaration, named, initialValue, require, closing, bind,
      Except.bind, pure, Except.pure]
  | initialised opening named sign value closing =>
    obtain ⟨k, value⟩ := value.reads
    refine declares_of_depth (fun depth rest => value.initialised named sign closing) ?_
    intro l rest
    simp [declaration, opening]
  | print opening value closing =>
    obtain ⟨k, value⟩ := value.reads
    refine declares_of_depth (fun depth rest => value.terminated .print .endOfPrint closing) ?_
    intro l rest
    simp [declaration, opening]
  | block opening body closing =>
    obtain ⟨k, body⟩ := body.declares
    exact ⟨k + 1, body.block opening closing⟩
  | expression value closing =>
    obtain ⟨t, us, rfl, first⟩ := value.opens
    obtain ⟨k, value⟩ := value.reads
    refine declares_of_depth
      (fun depth rest => value.terminated .expression .endOfExpression closing) ?_
    intro l rest
    have plain := declaration_expression first
    simpa using plain l _

theorem Declarations.declares (h : Declarations (fun _ => False) ts ns) :
    ∃ k, DeclaresAll ts ns k := by
  cases h with
  | done => exact ⟨0, .done⟩
  | next first others =>
    obtain ⟨k, declares⟩ := first.declares
    obtain ⟨j, others⟩ := others.declares
    exact ⟨_, declares.next first.opens others⟩
  | skip left _ => exact left.elim

end

end Scriptlet.Grammar
