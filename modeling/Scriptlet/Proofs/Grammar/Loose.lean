import Scriptlet.Proofs.Grammar.Completeness

/-! A looser grammar, in which anything that may be compared may be assigned to:

    assignment → equality ("=" assignment)?

What it derives is read as well, given depth enough, but for targets that are no names: such a target
is the first thing to which reading objects. -/
namespace Scriptlet.Grammar.Loose

open Scriptlet.Program (Attempt blockDone chain declaration many require stepsPerBlock)

/-- The tokens derive from a category of the looser grammar. -/
inductive Phrase : Category → List Token → Prop where
  | assign {equals : Token} (target : Phrase (.binary .equality) ts)
      (sign : equals.kind = .symbol .equal) (value : Phrase .expression us) :
      Phrase .expression (ts ++ equals :: us)
  | equality (inner : Phrase (.binary .equality) ts) : Phrase .expression ts
  | operand {level : Level} (inner : Phrase level.operand ts) : Phrase (.binary level) ts
  | operation {operator : Token} (left : Phrase (.binary level) ts)
      (sign : operator.kind = .symbol s) (own : s ∈ level.operators)
      (right : Phrase level.operand us) : Phrase (.binary level) (ts ++ operator :: us)
  | negation {operator : Token} (sign : operator.kind = .symbol s) (own : s ∈ prefixOperators)
      (inner : Phrase .unary ts) : Phrase .unary (operator :: ts)
  | primary (inner : Phrase .primary ts) : Phrase .unary ts
  | literal {t : Token} (own : t.kind ∈ literals) : Phrase .primary [t]
  | reference {t : Token} (own : t.kind = .identifier) : Phrase .primary [t]
  | grouping {opening closing : Token} (left : opening.kind = .symbol .leftParen)
      (inner : Phrase .expression ts) (right : closing.kind = .symbol .rightParen) :
      Phrase .primary (opening :: (ts ++ [closing]))

mutual

inductive Declaration : List Token → Prop where
  | bare {word name semicolon : Token} (opening : word.kind = .keyword .var)
      (named : name.kind = .identifier) (closing : semicolon.kind = .symbol .semicolon) :
      Declaration [word, name, semicolon]
  | initialised {word name equals semicolon : Token} (opening : word.kind = .keyword .var)
      (named : name.kind = .identifier) (sign : equals.kind = .symbol .equal)
      (value : Phrase .expression ts) (closing : semicolon.kind = .symbol .semicolon) :
      Declaration (word :: name :: equals :: (ts ++ [semicolon]))
  | print {word semicolon : Token} (opening : word.kind = .keyword .print)
      (value : Phrase .expression ts) (closing : semicolon.kind = .symbol .semicolon) :
      Declaration (word :: (ts ++ [semicolon]))
  | block {brace close : Token} (opening : brace.kind = .symbol .leftBrace) (body : Program ts)
      (closing : close.kind = .symbol .rightBrace) : Declaration (brace :: (ts ++ [close]))
  | expression {semicolon : Token} (value : Phrase .expression ts)
      (closing : semicolon.kind = .symbol .semicolon) : Declaration (ts ++ [semicolon])

inductive Program : List Token → Prop where
  | done : Program []
  | next (first : Declaration ts) (others : Program us) : Program (ts ++ us)

end

/-- A name may be compared. -/
theorem Phrase.name {name : Token} (named : name.kind = .identifier) :
    Phrase (.binary .equality) [name] := by
  have factor : Phrase (.binary .factor) [name] := .operand (.primary (.reference named))
  have term : Phrase (.binary .term) [name] := .operand factor
  have comparison : Phrase (.binary .comparison) [name] := .operand term
  exact .operand comparison

theorem Phrase.of_derives (h : Derives c ts n) : Phrase c ts := by
  induction h with
  | assign target sign _ value => exact .assign (.name target) sign value
  | equality _ inner => exact .equality inner
  | operand _ inner => exact .operand inner
  | operation _ sign own _ left right => exact .operation left sign own right
  | negation sign own _ inner => exact .negation sign own inner
  | primary _ inner => exact .primary inner
  | literal own => exact .literal own
  | reference own => exact .reference own
  | grouping left _ right inner => exact .grouping left inner right

mutual

theorem Declaration.of_derives : ∀ {ts n}, Grammar.Declaration (fun _ => False) ts n →
    Declaration ts
  | _, _, .bare opening named closing => .bare opening named closing
  | _, _, .initialised opening named sign value closing =>
    .initialised opening named sign (.of_derives value) closing
  | _, _, .print opening value closing => .print opening (.of_derives value) closing
  | _, _, .block opening body closing => .block opening (Program.of_derives body) closing
  | _, _, .expression value closing => .expression (.of_derives value) closing

theorem Program.of_derives : ∀ {ts ns}, Declarations (fun _ => False) ts ns → Program ts
  | _, _, .done => .done
  | _, _, .next first others => .next (Declaration.of_derives first) (Program.of_derives others)

end

theorem Phrase.opens (h : Phrase c ts) : ∃ t us, ts = t :: us ∧ Grammar.opens t := by
  induction h with
  | assign _ _ _ ih _ | operation _ _ _ _ ih _ =>
    obtain ⟨t, us, rfl, first⟩ := ih
    exact ⟨t, _, rfl, first⟩
  | equality _ ih | operand _ ih | primary _ ih => exact ih
  | negation sign own _ _ => exact ⟨_, _, rfl, .inr (.inr (.inr ⟨_, own, sign⟩))⟩
  | literal own => exact ⟨_, _, rfl, .inl own⟩
  | reference own => exact ⟨_, _, rfl, .inr (.inl own)⟩
  | grouping left _ _ _ => exact ⟨_, _, rfl, .inr (.inr (.inl left))⟩

/-- A primary phrase does not look like an operation on one. -/
theorem Phrase.primary_opens (h : Phrase .primary ts) :
    ∃ t us, ts = t :: us ∧ Program.isOneOf prefixOperators t = false := by
  cases h with
  | literal own => exact ⟨_, _, rfl, not_prefix (.inl own)⟩
  | reference own => exact ⟨_, _, rfl, not_prefix (.inr (.inl own))⟩
  | grouping left _ _ => exact ⟨_, _, rfl, not_prefix (.inr (.inr left))⟩

theorem Declaration.opens (h : Declaration ts) :
    ∃ t us, ts = t :: us ∧ t.kind ≠ .symbol .rightBrace := by
  cases h with
  | bare opening _ _ | initialised opening _ _ _ _ | print opening _ _ | block opening _ _ =>
    exact ⟨_, _, rfl, by simp [opening]⟩
  | expression value _ =>
    obtain ⟨t, us, rfl, first⟩ := value.opens
    exact ⟨t, _, rfl, first.not_rightBrace⟩

theorem Phrase.phrasal (h : Phrase c ts) : ∀ t ∈ ts, Phrasal t := by
  induction h with
  | assign _ sign _ target value =>
    exact List.forall_mem_append.mpr ⟨target,
      List.forall_mem_cons.mpr ⟨phrasal_of_symbol sign (by decide), value⟩⟩
  | equality _ ih | operand _ ih | primary _ ih => exact ih
  | operation _ sign own _ left right =>
    exact List.forall_mem_append.mpr ⟨left,
      List.forall_mem_cons.mpr ⟨phrasal_of_symbol sign (Level.not_foreign own), right⟩⟩
  | negation sign own _ ih =>
    have own := (show ∀ s ∈ prefixOperators, s ∉ foreignSymbols by decide) _ own
    exact List.forall_mem_cons.mpr ⟨phrasal_of_symbol sign own, ih⟩
  | literal own => exact List.forall_mem_singleton.mpr (.inl own)
  | reference own => exact List.forall_mem_singleton.mpr (.inr (.inl own))
  | grouping left _ right ih =>
    refine List.forall_mem_cons.mpr ⟨phrasal_of_symbol left (by decide), ?_⟩
    exact List.forall_mem_append.mpr ⟨ih,
      List.forall_mem_singleton.mpr (phrasal_of_symbol right (by decide))⟩

mutual

/-- No program holds an end of input. -/
theorem Declaration.opened : ∀ {ts}, Declaration ts → ∀ t ∈ ts, t.kind ≠ .endOfInput
  | _, .bare opening named closing, t, mem => by
    simp only [List.mem_cons, List.not_mem_nil, or_false] at mem
    rcases mem with rfl | rfl | rfl <;> simp [opening, named, closing]
  | _, .initialised opening named sign value closing, t, mem => by
    simp only [List.mem_cons, List.mem_append, List.not_mem_nil, or_false] at mem
    rcases mem with rfl | rfl | rfl | mem | rfl
    case inr.inr.inr.inl => exact (value.phrasal t mem).not_endOfInput
    all_goals simp [opening, named, sign, closing]
  | _, .print opening value closing, t, mem => by
    simp only [List.mem_cons, List.mem_append, List.not_mem_nil, or_false] at mem
    rcases mem with rfl | mem | rfl
    case inr.inl => exact (value.phrasal t mem).not_endOfInput
    all_goals simp [opening, closing]
  | _, .block opening body closing, t, mem => by
    simp only [List.mem_cons, List.mem_append, List.not_mem_nil, or_false] at mem
    rcases mem with rfl | mem | rfl
    case inr.inl => exact body.opened t mem
    all_goals simp [opening, closing]
  | _, .expression value closing, t, mem => by
    simp only [List.mem_append, List.mem_singleton] at mem
    rcases mem with mem | rfl
    · exact (value.phrasal t mem).not_endOfInput
    · simp [closing]

theorem Program.opened : ∀ {ts}, Program ts → ∀ t ∈ ts, t.kind ≠ .endOfInput
  | _, .done => nofun
  | _, .next first others => List.forall_mem_append.mpr ⟨first.opened, others.opened⟩

end

/-- Reading objects to the target of an assignment. -/
def Mistargeted (outcome : Except Obstacle α) : Prop :=
  ∃ o, outcome = .error o ∧ o.cause = .assignmentTarget

theorem Mistargeted.bind {x : Except Obstacle α} (h : Mistargeted x) (f : α → Except Obstacle β) :
    Mistargeted (x >>= f) := by
  obtain ⟨o, rfl, cause⟩ := h
  exact ⟨o, rfl, cause⟩

/-- Reading comes to a rest of the text, if it does not object to a target. -/
def Reaches (rest : List Token) (outcome : Except Obstacle (Node × List Token)) : Prop :=
  (∃ n, outcome = .ok (n, rest)) ∨ Mistargeted outcome

theorem Reaches.bind {x : Except Obstacle (Node × List Token)} (h : Reaches us x)
    {f : Node × List Token → Except Obstacle (Node × List Token)}
    (next : ∀ n, Reaches rest (f (n, us))) : Reaches rest (x >>= f) := by
  rcases h with ⟨n, rfl⟩ | missed
  · exact next n
  · exact .inr (missed.bind f)

/-- From `k` nested steps on, reading gets behind a phrase wherever nothing extends it. -/
def Admits (c : Category) (ts : List Token) (k : Nat) : Prop :=
  ∀ d rest, k ≤ d → c.Ends rest → Reaches rest (c.read d (ts ++ rest))

/-- Reading gets behind a left operand, with which the level goes on. -/
def AdmitsLeft (level : Level) (ts : List Token) (k : Nat) : Prop :=
  ∀ d rest, k ≤ d → level.operand.Ends rest →
    (∃ n, (Category.binary level).read (d + 1) (ts ++ rest) =
      chain level.operators (level.operand.read d) rest.length n rest) ∨
    Mistargeted ((Category.binary level).read (d + 1) (ts ++ rest))

section Rules

theorem Admits.of_reads (h : Reads c ts n k) : Admits c ts k :=
  fun _ _ le ends => .inl ⟨n, h.enough le ends⟩

theorem Admits.of_succ
    (step : ∀ d rest, k ≤ d → c.Ends rest → Reaches rest (c.read (d + 1) (ts ++ rest))) :
    Admits c ts (k + 1) := by
  intro d rest le ends
  cases d with
  | zero => exact absurd le (Nat.not_succ_le_zero k)
  | succ d => exact step d rest (Nat.le_of_succ_le_succ le) ends

theorem Admits.grouping {opening closing : Token} (left : opening.kind = .symbol .leftParen)
    (inner : Admits .expression ts k) (right : closing.kind = .symbol .rightParen) :
    Admits .primary (opening :: (ts ++ [closing])) (k + 1) := by
  refine .of_succ fun d rest le _ => ?_
  have ends : Category.expression.Ends (closing :: rest) := ends_of_kind right (by decide)
  rw [List.cons_append, List.append_assoc, List.singleton_append, read_grouping left]
  refine (inner _ _ le ends).bind fun n => .inl ⟨.grouping n, ?_⟩
  simp [require, right, bind, Except.bind, pure, Except.pure]

theorem Admits.primary (derived : Phrase .primary ts) (inner : Admits .primary ts k) :
    Admits .unary ts (k + 1) := by
  refine .of_succ fun d rest le _ => ?_
  have step : Category.unary.read (d + 1) (ts ++ rest) = Category.primary.read d (ts ++ rest) := by
    obtain ⟨t, us, rfl, other⟩ := derived.primary_opens
    simp [read_unary, other]
  rw [step]
  exact inner _ _ le fun t _ => rfl

theorem Admits.negation {operator : Token} (sign : operator.kind = .symbol s)
    (own : s ∈ prefixOperators) (inner : Admits .unary ts k) :
    Admits .unary (operator :: ts) (k + 1) := by
  refine .of_succ fun _ _ le ends => ?_
  rw [List.cons_append, read_negation sign own]
  exact (inner _ _ le ends).bind fun n => .inl ⟨_, rfl⟩

theorem AdmitsLeft.operand (level : Level) (inner : Admits level.operand ts k) :
    AdmitsLeft level ts k := by
  intro d rest le ends
  rw [read_binary]
  rcases inner _ _ le ends with ⟨n, read⟩ | missed
  · rw [read]
    exact .inl ⟨n, rfl⟩
  · exact .inr (missed.bind _)

theorem AdmitsLeft.operation {operator : Token} (left : AdmitsLeft level ts k)
    (sign : operator.kind = .symbol s) (own : s ∈ level.operators)
    (right : Admits level.operand us j) :
    AdmitsLeft level (ts ++ operator :: us) (max k j) := by
  intro d rest le ends
  have seam : level.operand.Ends (operator :: (us ++ rest)) := Level.ends_operand sign own
  rw [List.append_assoc, List.cons_append]
  rcases left _ _ (Nat.le_trans (Nat.le_max_left k j) le) seam with ⟨m, read⟩ | missed
  · rw [read, List.length_cons, chain_operation sign own]
    rcases right _ _ (Nat.le_trans (Nat.le_max_right k j) le) ends with ⟨n, read⟩ | missed
    · rw [read]
      refine .inl ⟨.binary m operator n, ?_⟩
      exact chain_fuel (fun read => (read_suffix read).length_le) (by simp) (Nat.le_refl _)
    · exact .inr (missed.bind _)
  · exact .inr missed

theorem AdmitsLeft.admits (h : AdmitsLeft level ts k) : Admits (.binary level) ts (k + 1) := by
  refine .of_succ fun _ _ le ends => ?_
  rcases h _ _ le (Category.ends_binary.mp ends).2 with ⟨n, read⟩ | missed
  · exact .inl ⟨n, read.trans (chain_stops ends)⟩
  · exact .inr missed

theorem Admits.equality (inner : Admits (.binary .equality) ts k) :
    Admits .expression ts (k + 1) := by
  refine .of_succ fun d rest le ends => ?_
  obtain ⟨below, other⟩ := ends_expression ends
  rw [read_expression]
  refine (inner _ _ le below).bind fun n => .inl ⟨n, ?_⟩
  cases rest with
  | nil => rfl
  | cons t rest => simp [pure, Except.pure, other t rfl]

/-- The target is gone by when the value has been read. -/
theorem Admits.assign {equals : Token} (target : Admits (.binary .equality) ts k)
    (sign : equals.kind = .symbol .equal) (value : Admits .expression us j) :
    Admits .expression (ts ++ equals :: us) (max k j + 1) := by
  refine .of_succ fun d rest le ends => ?_
  have seam : (Category.binary .equality).Ends (equals :: (us ++ rest)) :=
    ends_of_kind sign (by decide)
  rw [List.append_assoc, List.cons_append, read_expression]
  refine (target _ _ (Nat.le_trans (Nat.le_max_left k j) le) seam).bind fun m => ?_
  simp only [sign, if_true]
  refine (value _ _ (Nat.le_trans (Nat.le_max_right k j) le) ends).bind fun n => ?_
  cases m with
  | reference name => exact .inl ⟨_, rfl⟩
  | _ => exact .inr ⟨_, rfl, rfl⟩

end Rules

/-- What the induction over phrases carries: one of a binary level may still go on. -/
def Settles : Category → List Token → Prop
  | .binary level, ts => ∃ k, AdmitsLeft level ts k
  | c, ts => ∃ k, Admits c ts k

theorem Settles.admits (h : Settles c ts) : ∃ k, Admits c ts k := by
  cases c with
  | binary level =>
    obtain ⟨k, left⟩ := h
    exact ⟨k + 1, left.admits⟩
  | _ => exact h

theorem Phrase.settles (h : Phrase c ts) : Settles c ts := by
  induction h with
  | assign _ sign _ target value =>
    obtain ⟨k, target⟩ := target.admits
    obtain ⟨j, value⟩ := value.admits
    exact ⟨_, target.assign sign value⟩
  | equality _ inner =>
    obtain ⟨k, inner⟩ := inner.admits
    exact ⟨_, inner.equality⟩
  | operand _ inner =>
    obtain ⟨k, inner⟩ := inner.admits
    exact ⟨_, .operand _ inner⟩
  | operation _ sign own _ left right =>
    obtain ⟨k, left⟩ := left
    obtain ⟨j, right⟩ := right.admits
    exact ⟨_, left.operation sign own right⟩
  | negation sign own _ inner =>
    obtain ⟨k, inner⟩ := inner.admits
    exact ⟨_, inner.negation sign own⟩
  | primary derived inner =>
    obtain ⟨k, inner⟩ := inner.admits
    exact ⟨_, inner.primary derived⟩
  | literal own => exact ⟨_, .of_reads (.literal own)⟩
  | reference own => exact ⟨_, .of_reads (.reference own)⟩
  | grouping left _ right inner =>
    obtain ⟨k, inner⟩ := inner.admits
    exact ⟨_, .grouping left inner right⟩

theorem Phrase.admits (h : Phrase c ts) : ∃ k, Admits c ts k := h.settles.admits

/-- The first thing to which reading objects is the target of an assignment. -/
def Objects (os : List Obstacle) : Prop := ∃ o ∈ os.head?, o.cause = .assignmentTarget

theorem Objects.left (h : Objects os) (qs : List Obstacle) : Objects (os ++ qs) := by
  obtain ⟨o, first, cause⟩ := h
  refine ⟨o, ?_, cause⟩
  rw [List.head?_append, Option.mem_def.mp first]
  rfl

theorem Objects.of_mistargeted {outcome : Except Obstacle (Node × List Token)}
    (h : Mistargeted outcome) : Objects (Attempt.settle ⟨[], outcome⟩).obstacles := by
  obtain ⟨o, rfl, cause⟩ := h
  exact ⟨o, rfl, cause⟩

/-- From `k` levels of blocks on, reading gets behind a declaration, whatever follows. -/
def Declares (ts : List Token) (k : Nat) : Prop :=
  ∀ l rest, k ≤ l → (∃ n, declaration l (ts ++ rest) = ⟨[], .ok (n, rest)⟩) ∨
    Objects (declaration l (ts ++ rest)).settle.obstacles

/-- Reading gets behind a sequence of declarations. -/
def DeclaresAll (ts : List Token) (k : Nat) : Prop :=
  ∀ l done rest fuel, k ≤ l → Passes done → (ts ++ rest).length ≤ fuel →
    (∃ ns, many (declaration l) done fuel (ts ++ rest) =
      let others := many (declaration l) done rest.length rest
      ⟨ns ++ others.statements, others.obstacles, others.rest⟩) ∨
    Objects (many (declaration l) done fuel (ts ++ rest)).obstacles

theorem Admits.terminated (make : Node → Node) (cause : ParseError.Cause) {semicolon : Token}
    (value : Admits .expression ts k) (closing : semicolon.kind = .symbol .semicolon)
    (le : k ≤ depth) :
    Reaches rest (Program.terminated make cause depth (ts ++ semicolon :: rest)) := by
  have ends : Category.expression.Ends (semicolon :: rest) := ends_of_kind closing (by decide)
  refine Reaches.bind (value depth _ le ends) fun n => .inl ⟨make n, ?_⟩
  simp [require, closing, bind, Except.bind, pure, Except.pure]

theorem Admits.initialised {name equals semicolon : Token} (named : name.kind = .identifier)
    (sign : equals.kind = .symbol .equal) (value : Admits .expression ts k)
    (closing : semicolon.kind = .symbol .semicolon) (le : k ≤ depth) :
    Reaches rest
      (Program.variableDeclaration depth (name :: equals :: (ts ++ semicolon :: rest))) := by
  have ends : Category.expression.Ends (semicolon :: rest) := ends_of_kind closing (by decide)
  simp only [Program.variableDeclaration, named, Program.initialValue, sign, if_true]
  refine Reaches.bind (value depth _ le ends) fun n => .inl ⟨.declare name n, ?_⟩
  simp [require, closing, bind, Except.bind, pure, Except.pure]

/-- From a threshold in nested steps to one in levels of blocks. -/
theorem declares_of_depth {x : Nat → List Token → Except Obstacle (Node × List Token)}
    (reaches : ∀ depth rest, k ≤ depth → Reaches rest (x depth rest))
    (steps : ∀ l rest, declaration (l + 1) (ts ++ rest) = ⟨[], x (stepsPerBlock * (l + 1)) rest⟩) :
    Declares ts (k + 1) := by
  intro l rest le
  obtain ⟨l, rfl⟩ : ∃ l', l = l' + 1 := ⟨l - 1, by omega⟩
  rw [steps]
  have deep : k ≤ stepsPerBlock * (l + 1) := by
    simp only [stepsPerBlock]
    omega
  rcases reaches _ rest deep with ⟨n, read⟩ | missed
  · exact .inl ⟨n, by rw [read]⟩
  · exact .inr (.of_mistargeted missed)

theorem DeclaresAll.block {brace close : Token} (opening : brace.kind = .symbol .leftBrace)
    (body : DeclaresAll ts k) (closing : close.kind = .symbol .rightBrace) :
    Declares (brace :: (ts ++ [close])) (k + 1) := by
  intro l rest le
  obtain ⟨l, rfl⟩ : ∃ l', l = l' + 1 := ⟨l - 1, by omega⟩
  rw [List.cons_append, List.append_assoc, List.singleton_append, declaration_block opening]
  have ended : blockDone (close :: rest) = true := by simp [blockDone, closing]
  rcases body l blockDone (close :: rest) _ (by omega) passes_blockDone (Nat.le_refl _) with
    ⟨ns, read⟩ | objects
  · refine .inl ⟨.block (ns ++ []), ?_⟩
    rw [read, many_done ended]
    simp [require, closing, bind, Except.bind, pure, Except.pure]
  · refine .inr ?_
    rw [Attempt.settle]
    split
    · exact objects
    · exact objects.left _

theorem DeclaresAll.done : DeclaresAll [] 0 := fun _ _ _ _ _ passes enough =>
  .inl ⟨[], (declaration_faithful _).many_fuel passes.stops enough (Nat.le_refl _)⟩

theorem Declares.next (opens : ∃ t vs, ts = t :: vs ∧ t.kind ≠ .symbol .rightBrace)
    (first : Declares ts k) (others : DeclaresAll us j) : DeclaresAll (ts ++ us) (max k j) := by
  obtain ⟨t, vs, rfl, other⟩ := opens
  intro l done rest fuel le passes enough
  simp only [List.cons_append, List.length_cons, List.length_append] at enough
  obtain ⟨f, rfl⟩ : ∃ f, fuel = f + 1 := ⟨fuel - 1, by omega⟩
  rw [List.append_assoc, List.cons_append, many_next (passes.goes other), ← List.cons_append]
  rcases first l (us ++ rest) (Nat.le_trans (Nat.le_max_left k j) le) with ⟨n, read⟩ | objects
  · have enough : (us ++ rest).length ≤ f := by
      simp only [List.length_append]
      omega
    rw [read]
    rcases others l done rest f (Nat.le_trans (Nat.le_max_right k j) le) passes enough with
      ⟨ns, read⟩ | objects
    · exact .inl ⟨n :: ns, by simp [Attempt.settle, read]⟩
    · exact .inr objects
  · exact .inr (objects.left _)

mutual

theorem Declaration.declares : ∀ {ts}, Declaration ts → ∃ k, Declares ts k
  | _, @Declaration.bare _ name _ opening named closing => by
    refine ⟨_, declares_of_depth (k := 0) (x := fun _ rest => .ok (.declare name .missing, rest))
      (fun _ rest _ => .inl ⟨_, rfl⟩) ?_⟩
    intro l rest
    simp [declaration, opening, Program.variableDeclaration, named, Program.initialValue, require,
      closing, bind, Except.bind, pure, Except.pure]
  | _, .initialised opening named sign value closing => by
    obtain ⟨k, value⟩ := value.admits
    refine ⟨_, declares_of_depth (fun depth rest => value.initialised named sign closing) ?_⟩
    intro l rest
    simp [declaration, opening]
  | _, .print opening value closing => by
    obtain ⟨k, value⟩ := value.admits
    refine ⟨_, declares_of_depth (fun depth rest => value.terminated .print .endOfPrint closing) ?_⟩
    intro l rest
    simp [declaration, opening]
  | _, .block opening body closing => by
    obtain ⟨k, body⟩ := body.declares
    exact ⟨k + 1, body.block opening closing⟩
  | _, .expression value closing => by
    obtain ⟨t, us, rfl, first⟩ := value.opens
    obtain ⟨k, value⟩ := value.admits
    refine ⟨_, declares_of_depth
      (fun depth rest => value.terminated .expression .endOfExpression closing) ?_⟩
    intro l rest
    simpa using declaration_expression first l _

theorem Program.declares : ∀ {ts}, Program ts → ∃ k, DeclaresAll ts k
  | _, .done => ⟨0, .done⟩
  | _, .next first others => by
    obtain ⟨k, declares⟩ := first.declares
    obtain ⟨j, others⟩ := others.declares
    exact ⟨_, declares.next first.opens others⟩

end

/-- Given depth enough, reading objects to nothing in a program of the looser grammar before it
objects to a target. -/
theorem Program.objects (h : Program ts) : ∃ k, ∀ l, k ≤ l → ∀ o,
    o ∈ (many (declaration l) List.isEmpty ts.length ts).obstacles.head? →
      o.cause = .assignmentTarget := by
  obtain ⟨k, declares⟩ := h.declares
  refine ⟨k, fun l le o first => ?_⟩
  have enough : (ts ++ []).length ≤ ts.length := Nat.le_of_eq (congrArg _ (List.append_nil ts))
  have read := declares l List.isEmpty [] ts.length le passes_isEmpty enough
  rw [List.append_nil] at read
  rcases read with ⟨ns, read⟩ | ⟨o', first', cause⟩
  · rw [read] at first
    cases first
  · cases first.symm.trans first'
    exact cause

end Scriptlet.Grammar.Loose
