import Scriptlet.Proofs.Grammar.Reading

/-! What is read derives. An expression is read off the front of a text that does not extend it, and
where reading gives up, a rest of the text is left. A declaration read behind malformed ones derives
with the tokens left out as gaps; if nothing was malformed, without any gap. -/
namespace Scriptlet.Grammar

open Scriptlet.Program

/-- Whatever is read within `d` steps derives, and ends where nothing extends it. -/
def Sound (d : Nat) : Prop :=
  ∀ {c : Category} {ts : List Token} {n : Node} {rest : List Token}, c.read d ts = .ok (n, rest) →
    ∃ us, ts = us ++ rest ∧ Derives c us n ∧ c.Ends rest

section Soundness

variable {d : Nat} {level : Level} (sound : Sound d)
include sound

theorem chain_derives (left : Derives (.binary level) us m) (ends : level.operand.Ends ts)
    (enough : ts.length ≤ fuel)
    (read : chain level.operators (level.operand.read d) fuel m ts = .ok (n, rest)) :
    ∃ vs, ts = vs ++ rest ∧ Derives (.binary level) (us ++ vs) n ∧
      (Category.binary level).Ends rest := by
  induction fuel generalizing us m ts with
  | zero =>
    obtain rfl := List.length_eq_zero_iff.mp (Nat.le_zero.mp enough)
    cases read
    exact ⟨[], rfl, by simpa using left, nofun⟩
  | succ fuel ih =>
    cases ts with
    | nil =>
      cases read
      exact ⟨[], rfl, by simpa using left, nofun⟩
    | cons t ts =>
      unfold chain at read
      split at read
      · next operator =>
        obtain ⟨s, own, sign⟩ := isOneOf_iff.mp operator
        obtain ⟨⟨right, after⟩, first, others⟩ := Outcome.bind_eq_ok.mp read
        obtain ⟨vs, rfl, derived, ends⟩ := sound first
        have enough : after.length ≤ fuel := by
          simp only [List.length_cons, List.length_append] at enough
          omega
        obtain ⟨ws, rfl, whole, ends⟩ :=
          ih (.operation left sign own derived) ends enough others
        exact ⟨t :: (vs ++ ws), by simp, by simpa using whole, ends⟩
      · next other =>
        cases read
        refine ⟨[], rfl, by simpa using left, Category.ends_binary.mpr ⟨?_, ends⟩⟩
        simpa using other

theorem binary_derives (read : (Category.binary level).read (d + 1) ts = .ok (n, rest)) :
    ∃ us, ts = us ++ rest ∧ Derives (.binary level) us n ∧ (Category.binary level).Ends rest := by
  rw [read_binary] at read
  obtain ⟨⟨left, after⟩, first, others⟩ := Outcome.bind_eq_ok.mp read
  obtain ⟨us, rfl, derived, ends⟩ := sound first
  obtain ⟨vs, rfl, whole, ends⟩ :=
    chain_derives sound (.operand derived) ends (Nat.le_refl _) others
  exact ⟨us ++ vs, by simp, whole, ends⟩

/-- The target of an assignment is read as an operand, and only a name is one. -/
theorem expression_derives (read : Category.expression.read (d + 1) ts = .ok (n, rest)) :
    ∃ us, ts = us ++ rest ∧ Derives .expression us n ∧ Category.expression.Ends rest := by
  rw [read_expression] at read
  obtain ⟨⟨target, after⟩, first, others⟩ := Outcome.bind_eq_ok.mp read
  obtain ⟨us, rfl, derived, ends⟩ := sound first
  cases after with
  | nil =>
    cases others
    exact ⟨us, rfl, .equality derived, nofun⟩
  | cons t after =>
    simp only at others
    split at others
    · next sign =>
      obtain ⟨⟨value, rest⟩, second, made⟩ := Outcome.bind_eq_ok.mp others
      obtain ⟨vs, rfl, right, ends⟩ := sound second
      cases target with
      | reference name =>
        cases made
        obtain ⟨rfl, named⟩ := derived.reference_inv
        exact ⟨name :: t :: vs, by simp, .assign named sign right, ends⟩
      | _ => cases made
    · next other =>
      cases others
      refine ⟨us, rfl, .equality derived, ?_⟩
      intro t' same
      obtain rfl := Option.mem_some_iff.mp same
      have inner := ends t rfl
      simp only [Category.extenders] at inner ⊢
      simpa [isOneOf, other] using inner

theorem unary_derives (read : Category.unary.read (d + 1) ts = .ok (n, rest)) :
    ∃ us, ts = us ++ rest ∧ Derives .unary us n ∧ Category.unary.Ends rest := by
  have plain : Category.primary.read d ts = .ok (n, rest) →
      ∃ us, ts = us ++ rest ∧ Derives .unary us n ∧ Category.unary.Ends rest := by
    intro inner
    obtain ⟨us, rfl, derived, ends⟩ := sound inner
    exact ⟨us, rfl, .primary derived, ends⟩
  rw [read_unary] at read
  split at read
  · exact plain read
  · next t ts =>
    split at read
    · next operator =>
      obtain ⟨s, own, sign⟩ := isOneOf_iff.mp operator
      obtain ⟨⟨inner, after⟩, first, made⟩ := Outcome.bind_eq_ok.mp read
      obtain ⟨us, rfl, derived, ends⟩ := sound first
      cases made
      exact ⟨t :: us, rfl, .negation sign own derived, ends⟩
    · exact plain read

theorem primary_derives (read : Category.primary.read (d + 1) ts = .ok (n, rest)) :
    ∃ us, ts = us ++ rest ∧ Derives .primary us n ∧ Category.primary.Ends rest := by
  have ends : ∀ rest, Category.primary.Ends rest := fun rest t _ => rfl
  rw [read_primary] at read
  split at read
  · cases read
  · next t ts =>
    split at read
    · next own =>
      cases read
      exact ⟨[t], rfl, .literal (isLiteral_iff.mp own), ends _⟩
    split at read
    · next own =>
      cases read
      exact ⟨[t], rfl, .reference own, ends _⟩
    split at read
    · next left =>
      obtain ⟨⟨inner, after⟩, first, others⟩ := Outcome.bind_eq_ok.mp read
      obtain ⟨us, rfl, derived, _⟩ := sound first
      obtain ⟨_, required, made⟩ := Outcome.bind_eq_ok.mp others
      obtain ⟨closing, rfl, right⟩ := require_eq_ok.mp required
      cases made
      exact ⟨t :: (us ++ [closing]), by simp, .grouping left derived right, ends _⟩
    · cases read

end Soundness

theorem read_derives (d : Nat) : Sound d := by
  induction d with
  | zero =>
    intro c ts n rest read
    rw [read_zero] at read
    cases read
  | succ d ih =>
    intro c ts n rest read
    cases c with
    | expression => exact expression_derives ih read
    | binary level => exact binary_derives ih read
    | unary => exact unary_derives ih read
    | primary => exact primary_derives ih read

/-- What is left of a text behind tokens of a sort. -/
def Behind (sort : Token → Prop) (ts rest : List Token) : Prop :=
  ∃ us, ts = us ++ rest ∧ ∀ t ∈ us, sort t

namespace Behind

variable {sort : Token → Prop}

theorem refl (ts : List Token) : Behind sort ts ts := ⟨[], rfl, nofun⟩

theorem cons (own : sort t) (h : Behind sort ts rest) : Behind sort (t :: ts) rest := by
  obtain ⟨us, rfl, all⟩ := h
  exact ⟨t :: us, rfl, List.forall_mem_cons.mpr ⟨own, all⟩⟩

theorem trans (first : Behind sort ts us) (second : Behind sort us rest) :
    Behind sort ts rest := by
  obtain ⟨vs, rfl, all⟩ := first
  obtain ⟨ws, rfl, others⟩ := second
  exact ⟨vs ++ ws, (List.append_assoc ..).symm, List.forall_mem_append.mpr ⟨all, others⟩⟩

theorem mono {other : Token → Prop} (h : Behind sort ts rest) (le : ∀ t, sort t → other t) :
    Behind other ts rest := by
  obtain ⟨us, whole, all⟩ := h
  exact ⟨us, whole, fun t mem => le t (all t mem)⟩

theorem suffix (h : Behind sort ts rest) : rest <:+ ts := by
  obtain ⟨us, rfl, _⟩ := h
  exact List.suffix_append us rest

/-- A token of another sort still stands in what is left. -/
theorem of_foreign (h : Behind sort (front ++ t :: rest) left) (foreign : ¬ sort t) :
    ∃ mid, mid <:+ front ∧ left = mid ++ t :: rest := by
  obtain ⟨us, whole, all⟩ := h
  rcases List.append_eq_append_iff.mp whole with ⟨past, rfl, split⟩ | ⟨mid, rfl, left⟩
  · cases past with
    | nil => exact ⟨[], List.nil_suffix, split.symm⟩
    | cons t' past =>
      cases split
      exact absurd (all t (by simp)) foreign
  · exact ⟨mid, List.suffix_append us mid, left⟩

end Behind

theorem read_behind {c : Category} (read : c.read d ts = .ok (n, rest)) :
    Behind Phrasal ts rest := by
  obtain ⟨us, whole, derived, _⟩ := read_derives d read
  exact ⟨us, whole, derived.phrasal⟩

theorem read_suffix {c : Category} (read : c.read d ts = .ok (n, rest)) : rest <:+ ts :=
  (read_behind read).suffix

theorem require_error {cause : ParseError.Cause}
    (required : Program.require s cause ts = .error o) : o = .here cause ts := by
  unfold Program.require at required
  split at required
  · split at required <;> cases required
    rfl
  · cases required
    rfl

/-- An obstacle is met, and names a token, behind nothing but tokens of a sort. -/
def Obstructs (sort : Token → Prop) (ts : List Token) (o : Obstacle) : Prop :=
  Behind sort ts o.named ∧ Behind sort ts o.rest

namespace Obstructs

variable {sort : Token → Prop}

theorem here (cause : ParseError.Cause) (ts : List Token) : Obstructs sort ts (.here cause ts) :=
  ⟨.refl ts, .refl ts⟩

theorem behind (h : Obstructs sort us o) (first : Behind sort ts us) : Obstructs sort ts o :=
  ⟨first.trans h.1, first.trans h.2⟩

theorem cons (own : sort t) (h : Obstructs sort ts o) : Obstructs sort (t :: ts) o :=
  ⟨h.1.cons own, h.2.cons own⟩

end Obstructs

section Failure

variable {d : Nat} {level : Level}

/-- Whatever gives up within `d` steps does so inside of an expression. -/
def Leaves (d : Nat) : Prop :=
  ∀ {c : Category} {ts : List Token} {o : Obstacle}, c.read d ts = .error o → Obstructs Phrasal ts o

variable (leaves : Leaves d)
include leaves

theorem chain_leaves
    (read : chain level.operators (level.operand.read d) fuel m ts = .error o) :
    Obstructs Phrasal ts o := by
  induction fuel generalizing m ts with
  | zero => cases read
  | succ fuel ih =>
    cases ts with
    | nil => cases read
    | cons t ts =>
      unfold chain at read
      split at read
      next operator =>
        obtain ⟨s, own, sign⟩ := isOneOf_iff.mp operator
        have phrasal := phrasal_of_symbol sign (Level.not_foreign own)
        rcases Outcome.bind_eq_error.mp read with first | ⟨⟨right, after⟩, first, others⟩
        · exact (leaves first).cons phrasal
        · exact ((ih others).behind (read_behind first)).cons phrasal
      · cases read

theorem expression_leaves (read : Category.expression.read (d + 1) ts = .error o) :
    Obstructs Phrasal ts o := by
  rw [read_expression] at read
  rcases Outcome.bind_eq_error.mp read with first | ⟨⟨target, after⟩, first, others⟩
  · exact leaves first
  have left := read_behind first
  cases after with
  | nil => cases others
  | cons t after =>
    simp only at others
    split at others
    next sign =>
      have equals := phrasal_of_symbol sign (by decide)
      rcases Outcome.bind_eq_error.mp others with second | ⟨⟨value, rest⟩, second, made⟩
      · exact ((leaves second).cons equals).behind left
      · cases target with
        | reference name => cases made
        | _ =>
          -- The equals sign is named, but the value behind it has been read.
          cases made
          exact ⟨left, left.trans ((read_behind second).cons equals)⟩
    · cases others

theorem unary_leaves (read : Category.unary.read (d + 1) ts = .error o) :
    Obstructs Phrasal ts o := by
  rw [read_unary] at read
  split at read
  · exact leaves read
  · next t ts =>
    split at read
    next operator =>
      obtain ⟨s, own, sign⟩ := isOneOf_iff.mp operator
      have own := (show ∀ s ∈ prefixOperators, s ∉ foreignSymbols by decide) s own
      rcases Outcome.bind_eq_error.mp read with first | ⟨⟨inner, after⟩, first, made⟩
      · exact (leaves first).cons (phrasal_of_symbol sign own)
      · cases made
    · exact leaves read

theorem primary_leaves (read : Category.primary.read (d + 1) ts = .error o) :
    Obstructs Phrasal ts o := by
  rw [read_primary] at read
  split at read
  · cases read
    exact .here _ []
  · next t ts =>
    split at read
    · cases read
    split at read
    · cases read
    split at read
    next left =>
      have paren := phrasal_of_symbol left (by decide)
      rcases Outcome.bind_eq_error.mp read with first | ⟨⟨inner, after⟩, first, others⟩
      · exact (leaves first).cons paren
      · rcases Outcome.bind_eq_error.mp others with required | ⟨_, _, made⟩
        · rw [require_error required]
          exact ((Obstructs.here _ after).behind (read_behind first)).cons paren
        · cases made
    · cases read
      exact .here _ (t :: ts)

end Failure

theorem read_leaves (d : Nat) : Leaves d := by
  induction d with
  | zero =>
    intro c ts o read
    rw [read_zero] at read
    cases read
    exact .here _ ts
  | succ d ih =>
    intro c ts o read
    cases c with
    | expression => exact expression_leaves ih read
    | binary level =>
      rw [read_binary] at read
      rcases Outcome.bind_eq_error.mp read with first | ⟨⟨left, after⟩, first, others⟩
      · exact ih first
      · exact (chain_leaves ih others).behind (read_behind first)
    | unary => exact unary_leaves ih read
    | primary => exact primary_leaves ih read

/-- Stretches may be left out once there are obstacles. -/
def Slack (gap : List Token → Prop) (os : List Obstacle) : Prop :=
  os ≠ [] → ∀ us, us ≠ [] → gap us

theorem Slack.left (h : Slack gap (os ++ qs)) : Slack gap os :=
  fun some => h (by simp [some])

theorem Slack.right (h : Slack gap (os ++ qs)) : Slack gap qs :=
  fun some => h (by simp [some])

/-- A way of reading one declaration that follows the grammar when it succeeds and leaves a rest of
the text when it does not. -/
structure Faithful (read : List Token → Attempt) : Prop where
  derives {gap ts n rest} (slack : Slack gap (read ts).inner)
    (outcome : (read ts).outcome = .ok (n, rest)) : ∃ us, ts = us ++ rest ∧ Declaration gap us n
  leaves {ts o} (outcome : (read ts).outcome = .error o) : o.rest <:+ ts

theorem boundary_suffix (passed : Token) (ts : List Token) : boundary passed ts <:+ ts := by
  induction ts generalizing passed with
  | nil => exact List.suffix_refl []
  | cons t ts ih =>
    unfold boundary
    split
    · exact List.suffix_refl _
    · exact (ih t).trans (List.suffix_cons t ts)

theorem resync_suffix (left : rest <:+ t :: ts) : resync rest <:+ ts := by
  cases rest with
  | nil => exact List.nil_suffix
  | cons t' rest =>
    have inner : rest <:+ ts := by
      rcases List.suffix_cons_iff.mp left with same | inner
      · cases same
        exact List.suffix_refl _
      · exact (List.suffix_cons t' rest).trans inner
    exact (boundary_suffix t' rest).trans inner

theorem settle_ok {a : Attempt} (outcome : a.outcome = .ok (n, rest)) :
    a.settle = ⟨[n], a.inner, rest⟩ := by
  simp [Attempt.settle, outcome]

theorem settle_error {a : Attempt} (outcome : a.outcome = .error o) :
    a.settle = ⟨[], a.inner ++ [o], resync o.rest⟩ := by
  simp [Attempt.settle, outcome]

section Sequence

variable {read : List Token → Attempt} {done : List Token → Bool}

theorem many_done (ended : done ts = true) : many read done fuel ts = ⟨[], [], ts⟩ := by
  cases fuel <;> simp [many, ended]

theorem many_next (going : done ts = false) :
    many read done (fuel + 1) ts =
      let first := (read ts).settle
      let others := many read done fuel first.rest
      ⟨first.statements ++ others.statements, first.obstacles ++ others.obstacles, others.rest⟩ := by
  simp [many, going]

variable (faithful : Faithful read)
include faithful

/-- An attempt gets on. -/
theorem Faithful.settle_suffix (t : Token) (ts : List Token) :
    (read (t :: ts)).settle.rest <:+ ts := by
  cases outcome : (read (t :: ts)).outcome with
  | ok result =>
    obtain ⟨n, rest⟩ := result
    obtain ⟨us, whole, derived⟩ : ∃ us, t :: ts = us ++ rest ∧ Declaration (fun us => us ≠ []) us n :=
      faithful.derives (fun _ _ => id) outcome
    obtain ⟨t', us, rfl, _⟩ := derived.opens
    rw [settle_ok outcome]
    cases whole
    exact List.suffix_append us rest
  | error o =>
    rw [settle_error outcome]
    exact resync_suffix (faithful.leaves outcome)

/-- An attempt yields the statement that its tokens derive, or leaves them out. -/
theorem Faithful.settle_derives (slack : Slack gap (read (t :: ts)).settle.obstacles)
    (others : Declarations gap vs ns) : ∃ us, t :: ts = us ++ (read (t :: ts)).settle.rest ∧
      Declarations gap (us ++ vs) ((read (t :: ts)).settle.statements ++ ns) := by
  obtain ⟨skipped, left⟩ := faithful.settle_suffix t ts
  cases outcome : (read (t :: ts)).outcome with
  | ok result =>
    obtain ⟨n, rest⟩ := result
    rw [settle_ok outcome] at slack ⊢
    obtain ⟨us, whole, derived⟩ := faithful.derives slack outcome
    exact ⟨us, whole, .next derived others⟩
  | error o =>
    rw [settle_error outcome] at slack left ⊢
    refine ⟨t :: skipped, by simpa using left.symm, .skip ?_ others⟩
    exact slack (by simp) _ (List.cons_ne_nil t skipped)

theorem Faithful.many_derives (stops : done [] = true) (enough : ts.length ≤ fuel)
    (slack : Slack gap (many read done fuel ts).obstacles) :
    done (many read done fuel ts).rest = true ∧ ∃ us, ts = us ++ (many read done fuel ts).rest ∧
      Declarations gap us (many read done fuel ts).statements := by
  induction fuel generalizing ts with
  | zero =>
    obtain rfl := List.length_eq_zero_iff.mp (Nat.le_zero.mp enough)
    exact ⟨stops, [], rfl, .done⟩
  | succ fuel ih =>
    cases going : done ts with
    | true =>
      rw [many_done going]
      exact ⟨going, [], rfl, .done⟩
    | false =>
      rw [many_next going] at slack ⊢
      cases ts with
      | nil => cases stops.symm.trans going
      | cons t ts =>
        have shorter : (read (t :: ts)).settle.rest.length ≤ fuel := by
          have := (faithful.settle_suffix t ts).length_le
          simp only [List.length_cons] at enough
          omega
        obtain ⟨ended, vs, others, derived⟩ := ih shorter slack.right
        obtain ⟨us, first, whole⟩ := faithful.settle_derives slack.left derived
        refine ⟨ended, us ++ vs, ?_, whole⟩
        calc t :: ts = us ++ (read (t :: ts)).settle.rest := first
          _ = us ++ (vs ++ (many read done fuel (read (t :: ts)).settle.rest).rest) :=
            congrArg (us ++ ·) others
          _ = _ := (List.append_assoc ..).symm

theorem Faithful.many_suffix (stops : done [] = true) (enough : ts.length ≤ fuel) :
    (many read done fuel ts).rest <:+ ts := by
  have slack : Slack (fun us => us ≠ []) (many read done fuel ts).obstacles := fun _ _ => id
  obtain ⟨_, us, whole, _⟩ := faithful.many_derives stops enough slack
  exact ⟨us, whole.symm⟩

end Sequence

theorem terminated_ok {make : Node → Node} {cause : ParseError.Cause}
    (read : terminated make cause depth ts = .ok (n, rest)) :
    ∃ us semicolon v, ts = us ++ semicolon :: rest ∧ n = make v ∧ Derives .expression us v ∧
      semicolon.kind = .symbol .semicolon := by
  obtain ⟨⟨value, after⟩, first, others⟩ := Outcome.bind_eq_ok.mp read
  obtain ⟨us, rfl, derived, _⟩ := read_derives depth (c := .expression) first
  obtain ⟨_, required, made⟩ := Outcome.bind_eq_ok.mp others
  obtain ⟨semicolon, rfl, closing⟩ := require_eq_ok.mp required
  cases made
  exact ⟨us, semicolon, value, rfl, rfl, derived, closing⟩

theorem terminated_leaves {make : Node → Node} {cause : ParseError.Cause}
    (read : terminated make cause depth ts = .error o) : Obstructs Phrasal ts o := by
  rcases Outcome.bind_eq_error.mp read with first | ⟨⟨value, after⟩, first, others⟩
  · exact read_leaves depth (c := .expression) first
  rcases Outcome.bind_eq_error.mp others with required | ⟨_, _, made⟩
  · rw [require_error required]
    exact (Obstructs.here _ after).behind (read_behind (c := .expression) first)
  · cases made

theorem variableDeclaration_ok {word : Token} (opening : word.kind = .keyword .var)
    (read : variableDeclaration depth ts = .ok (n, rest)) :
    ∃ us, ts = us ++ rest ∧ Declaration gap (word :: us) n := by
  unfold variableDeclaration at read
  split at read
  · cases read
  next name ts =>
  split at read
  next named =>
    obtain ⟨⟨value, after⟩, first, others⟩ := Outcome.bind_eq_ok.mp read
    obtain ⟨_, required, made⟩ := Outcome.bind_eq_ok.mp others
    obtain ⟨semicolon, rfl, closing⟩ := require_eq_ok.mp required
    cases made
    unfold initialValue at first
    split at first
    · cases first
    next t ts =>
    split at first
    next sign =>
      obtain ⟨us, rfl, derived, _⟩ := read_derives depth (c := .expression) first
      exact ⟨name :: t :: (us ++ [semicolon]), by simp,
        .initialised opening named sign derived closing⟩
    next =>
      cases first
      exact ⟨[name, semicolon], rfl, .bare opening named closing⟩
  · cases read

theorem initialValue_leaves (read : initialValue depth ts = .error o) : Obstructs Phrasal ts o := by
  unfold initialValue at read
  split at read
  · cases read
  next t ts =>
  split at read
  next sign =>
    have equals := phrasal_of_symbol sign (by decide)
    exact (read_leaves depth (c := .expression) read).cons equals
  · cases read

theorem initialValue_behind (read : initialValue depth ts = .ok (n, rest)) :
    Behind Phrasal ts rest := by
  unfold initialValue at read
  split at read
  · cases read
    exact .refl []
  next t ts =>
  split at read
  next sign =>
    have equals := phrasal_of_symbol sign (by decide)
    exact (read_behind (c := .expression) read).cons equals
  · cases read
    exact .refl _

theorem variableDeclaration_leaves (read : variableDeclaration depth ts = .error o) :
    Obstructs Phrasal ts o := by
  unfold variableDeclaration at read
  split at read
  · cases read
    exact .here _ []
  next name ts =>
  split at read
  next named =>
    rcases Outcome.bind_eq_error.mp read with first | ⟨⟨value, after⟩, first, others⟩
    · exact (initialValue_leaves first).cons (.inr (.inl named))
    rcases Outcome.bind_eq_error.mp others with required | ⟨_, _, made⟩
    · rw [require_error required]
      exact ((Obstructs.here _ after).behind (initialValue_behind first)).cons (.inr (.inl named))
    · cases made
  · cases read
    exact .here _ (name :: ts)

section Step

variable {l : Nat} (inner : Faithful (declaration l))
include inner

/-- If no declaration inside of blocks was left out, what is read derives. -/
theorem declaration_derives (slack : Slack gap (declaration (l + 1) ts).inner)
    (outcome : (declaration (l + 1) ts).outcome = .ok (n, rest)) :
    ∃ us, ts = us ++ rest ∧ Declaration gap us n := by
  have expression : ∀ {ts}, terminated .expression .endOfExpression
      (stepsPerBlock * (l + 1)) ts = .ok (n, rest) →
      ∃ us, ts = us ++ rest ∧ Declaration gap us n := by
    intro ts read
    obtain ⟨us, semicolon, v, rfl, rfl, derived, closing⟩ := terminated_ok read
    exact ⟨us ++ [semicolon], by simp, .expression derived closing⟩
  unfold declaration at slack outcome
  split at slack
  · exact expression outcome
  next t ts =>
  split at slack
  next opening =>
    obtain ⟨us, rfl, derived⟩ := variableDeclaration_ok opening (by simpa [opening] using outcome)
    exact ⟨t :: us, rfl, derived⟩
  next opening =>
    obtain ⟨us, semicolon, v, rfl, rfl, derived, closing⟩ :=
      terminated_ok (by simpa [opening] using outcome)
    exact ⟨t :: (us ++ [semicolon]), by simp, .print opening derived closing⟩
  next opening =>
    simp only [opening] at outcome
    obtain ⟨_, required, made⟩ := Outcome.bind_eq_ok.mp outcome
    obtain ⟨brace, left, closing⟩ := require_eq_ok.mp required
    cases made
    obtain ⟨_, us, body, derived⟩ := inner.many_derives rfl (Nat.le_refl _) slack
    rw [left] at body
    exact ⟨t :: (us ++ [brace]), by rw [body]; simp, .block opening derived closing⟩
  next other _ _ _ => exact expression (by simpa using outcome)

theorem declaration_leaves (outcome : (declaration (l + 1) ts).outcome = .error o) :
    o.rest <:+ ts := by
  unfold declaration at outcome
  split at outcome
  · exact (terminated_leaves outcome).2.suffix
  next t ts =>
  split at outcome
  · exact (variableDeclaration_leaves outcome).2.suffix.trans (List.suffix_cons t ts)
  · exact (terminated_leaves outcome).2.suffix.trans (List.suffix_cons t ts)
  · rcases Outcome.bind_eq_error.mp outcome with required | ⟨_, _, made⟩
    · obtain ⟨us, body⟩ := inner.many_suffix (rfl : blockDone [] = true) (Nat.le_refl ts.length)
      rw [require_error required]
      exact ⟨t :: us, congrArg (t :: ·) body⟩
    · cases made
  · exact (terminated_leaves outcome).2.suffix

end Step

theorem declaration_faithful (levels : Nat) : Faithful (declaration levels) := by
  induction levels with
  | zero =>
    constructor
    · intro gap ts n rest slack outcome
      cases outcome
    · intro ts o outcome
      cases outcome
      exact List.suffix_refl ts
  | succ l ih =>
    constructor
    · exact declaration_derives ih
    · exact declaration_leaves ih

end Scriptlet.Grammar
