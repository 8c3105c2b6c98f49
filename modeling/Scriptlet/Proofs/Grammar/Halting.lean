import Scriptlet.Proofs.Grammar.Loose

/-! Where reading first objects. What stands in front of the token to blame begins a text of the looser
grammar; and however deep reading may go, and whatever comes behind that token, reading objects to it
again. -/
namespace Scriptlet.Grammar

open Loose (Phrase)
open Scriptlet.Program (Attempt blockDone chain declaration isOneOf many require stepsPerBlock
  terminated variableDeclaration)

def obstacle? : Except Obstacle α → Option Obstacle
  | .ok _ => none
  | .error o => some o

theorem mem_obstacle? {outcome : Except Obstacle α} :
    o ∈ obstacle? outcome ↔ outcome = .error o := by
  cases outcome <;> simp [obstacle?]

/-- What the looser grammar has no objection to: the sign that makes something a target. -/
def conceded (o : Obstacle) : List Token :=
  if o.cause = .assignmentTarget then o.named.take 1 else []

/-- A way of reading, which may go `d` deep, meets an obstacle behind some tokens. -/
structure Halts (first : Nat → List Token → Option Obstacle) (language : List Token → Prop)
    (d : Nat) (before : List Token) (o : Obstacle) : Prop where
  viable : ∃ vs, language (before ++ (conceded o ++ vs))
  fails e named (deeper : d ≤ e) (same : named.head? = o.named.head?) :
    ∃ o' ∈ first e (before ++ named),
      o.cause ≠ .assignmentTarget → o' = .here o.cause named
  marks (target : o.cause = .assignmentTarget) : ∃ t ∈ o.named.head?, t.kind = .symbol .equal

/-- It meets the obstacle in a text, which goes on with the tokens named. -/
def Stuck (first : Nat → List Token → Option Obstacle) (language : List Token → Prop) (d : Nat)
    (ts : List Token) (o : Obstacle) : Prop :=
  ∃ before, ts = before ++ o.named ∧ Halts first language d before o

namespace Stuck

variable {first other : Nat → List Token → Option Obstacle} {language wider : List Token → Prop}

/-- Reading objects to the next token. -/
theorem here {cause : ParseError.Cause} (own : cause ≠ .assignmentTarget) (us : List Token)
    (viable : ∃ vs, language (us ++ vs))
    (fails : ∀ e named, d ≤ e → named.head? = rest.head? →
      .here cause named ∈ first e (us ++ named)) :
    Stuck first language d (us ++ rest) (.here cause rest) := by
  refine ⟨us, rfl, ?viable, ?fails, fun target => absurd target own⟩
  case viable =>
    have none : conceded (.here cause rest) = [] := if_neg own
    rw [none]
    exact viable
  case fails =>
    intro e named deeper same
    exact ⟨_, fails e named deeper same, fun _ => rfl⟩

/-- What reading objects to in a part of a text, it objects to in the whole. -/
theorem within (us : List Token) (h : Stuck first language d ts o)
    (completes : ∀ vs, language vs → ∃ ws, wider (us ++ (vs ++ ws)))
    (passes : ∀ e, d' ≤ e → ∃ d'', d ≤ d'' ∧ ∀ ts', ts'.head? = ts.head? → ∀ o' ∈ first d'' ts',
      o' ∈ other e (us ++ ts')) :
    Stuck other wider d' (us ++ ts) o := by
  obtain ⟨before, rfl, halts⟩ := h
  refine ⟨us ++ before, (List.append_assoc ..).symm, ?viable, ?fails, halts.marks⟩
  case viable =>
    obtain ⟨vs, derived⟩ := halts.viable
    obtain ⟨ws, derived⟩ := completes _ derived
    exact ⟨vs ++ ws, by simpa only [List.append_assoc] using derived⟩
  case fails =>
    intro e named deeper same
    obtain ⟨d'', le, passes⟩ := passes e deeper
    obtain ⟨o', met, own⟩ := halts.fails d'' named le same
    refine ⟨o', ?_, own⟩
    rw [List.append_assoc]
    exact passes _ (by rw [List.head?_append, List.head?_append, same]) o' met

/-- A part that is read with one step less. -/
theorem of_step {x y : Nat → List Token → Except Obstacle (Node × List Token)} (us : List Token)
    (h : Stuck (fun e ts => obstacle? (y e ts)) language d ts o)
    (completes : ∀ vs, language vs → ∃ ws, wider (us ++ (vs ++ ws)))
    (steps : ∀ e ts' o', d ≤ e → ts'.head? = ts.head? → y e ts' = .error o' →
      x (e + 1) (us ++ ts') = .error o') :
    Stuck (fun e ts => obstacle? (x e ts)) wider (d + 1) (us ++ ts) o := by
  refine h.within us completes fun e deeper => ?_
  obtain ⟨e, rfl⟩ : ∃ e', e = e' + 1 := ⟨e - 1, by omega⟩
  refine ⟨e, Nat.le_of_succ_le_succ deeper, fun ts' same o' met => ?_⟩
  rw [mem_obstacle?] at met ⊢
  exact steps e ts' o' (Nat.le_of_succ_le_succ deeper) same met

end Stuck

/-- Reading a category meets an obstacle. -/
abbrev StuckIn (c : Category) (d : Nat) (ts : List Token) (o : Obstacle) : Prop :=
  Stuck (fun e ts => obstacle? (c.read e ts)) (Phrase c) d ts o

/-- Whatever stops reading within `d` steps, but for want of depth, is an obstacle in this sense. -/
def Obstructed (d : Nat) : Prop :=
  ∀ {c : Category} {ts : List Token} {o : Obstacle}, c.read d ts = .error o → o.cause ≠ .tooDeep →
    StuckIn c d ts o

/-- A token for a symbol. -/
def mark (s : Symbol) : Token := ⟨.symbol s, String.ofList s.text, 1⟩

/-- What was read is not out of reach. -/
theorem le_of_not_short {d k : Nat} {x : Except Obstacle α} (short : d < k → Short x)
    (shallow : ∀ o, x = .error o → o.cause ≠ .tooDeep) : k ≤ d := by
  refine Nat.le_of_not_lt fun lt => ?_
  obtain ⟨o, failed, deep⟩ := short lt
  exact shallow o failed deep

theorem ends_of_head?_eq {c : Category} (same : ts.head? = us.head?) (ends : c.Ends us) :
    c.Ends ts := by
  intro t first
  exact ends t (same ▸ first)

section Expressions

variable {d : Nat} {ts : List Token} {o : Obstacle} {level : Level}

/-- An expression, and a symbol that has to come behind it. -/
def closed (s : Symbol) (cause : ParseError.Cause) (make : Node → Node) (d : Nat)
    (ts : List Token) : Except Obstacle (Node × List Token) := do
  let (value, rest) ← Category.expression.read d ts
  let rest ← require s cause rest
  return (make value, rest)

/-- The texts that end with the symbol behind an expression. -/
def Closed (s : Symbol) (ts : List Token) : Prop :=
  ∃ us closing, ts = us ++ [closing] ∧ Phrase .expression us ∧ closing.kind = .symbol s

theorem require_error_iff {cause : ParseError.Cause} :
    require s cause ts = .error o ↔ o = .here cause ts ∧ ∀ t ∈ ts.head?, t.kind ≠ .symbol s := by
  cases ts with
  | nil => simp [require, eq_comm]
  | cons t ts =>
    by_cases own : t.kind = .symbol s
    · simp [require, own]
    · simp [require, own, eq_comm]

theorem closed_stuck (obstructed : Obstructed d) {cause : ParseError.Cause}
    (own : cause ≠ .assignmentTarget) (failed : closed s cause make d ts = .error o)
    (shallow : o.cause ≠ .tooDeep) :
    Stuck (fun e ts => obstacle? (closed s cause make e ts)) (Closed s) d ts o := by
  rcases Outcome.bind_eq_error.mp failed with failed | ⟨⟨value, rest⟩, read, others⟩
  · refine (obstructed failed shallow).within [] ?_ fun e deeper => ⟨e, deeper, ?_⟩
    · intro vs derived
      exact ⟨[mark s], vs, mark s, rfl, derived, rfl⟩
    · intro ts' _ o' met
      rw [mem_obstacle?] at met ⊢
      simp only [closed, List.nil_append, met]
      rfl
  rcases Outcome.bind_eq_error.mp others with required | ⟨_, _, made⟩
  · obtain ⟨us, rfl, derived, ends⟩ := read_derives d read
    obtain ⟨rfl, other⟩ := require_error_iff.mp required
    obtain ⟨k, reads⟩ := derived.reads
    have le : k ≤ d := by
      refine le_of_not_short (fun lt => reads.short lt ends) ?_
      intro o failed
      cases failed.symm.trans read
    refine .here own us ⟨[mark s], us, mark s, rfl, .of_derives derived, rfl⟩ ?_
    intro e named deeper same
    have read := reads.enough (Nat.le_trans le deeper) (ends_of_head?_eq same ends)
    have required := require_error_iff.mpr
      ⟨(rfl : Obstacle.here cause named = .here cause named), same ▸ other⟩
    rw [mem_obstacle?, closed, read]
    simp only [Outcome.ok_bind, required]
    rfl
  · cases made

/-- What stops a level behind its first operand stops a later operand. -/
theorem chain_error (left : Derives (.binary level) us m)
    (failed : chain level.operators (level.operand.read d) fuel m ts = .error o) :
    ∃ vs operator rest n, ts = vs ++ operator :: rest ∧ Derives (.binary level) (us ++ vs) n ∧
      (∃ s ∈ level.operators, operator.kind = .symbol s) ∧
      level.operand.read d rest = .error o := by
  induction fuel generalizing us m ts with
  | zero => cases failed
  | succ fuel ih =>
    cases ts with
    | nil => cases failed
    | cons t ts =>
      unfold chain at failed
      split at failed
      next operator =>
        have operator := isOneOf_iff.mp operator
        rcases Outcome.bind_eq_error.mp failed with failed | ⟨⟨right, after⟩, read, others⟩
        · refine ⟨[], t, ts, m, rfl, ?_, operator, failed⟩
          rwa [List.append_nil]
        · obtain ⟨vs, rfl, derived, _⟩ := read_derives d read
          obtain ⟨s, own, sign⟩ := operator
          obtain ⟨ws, operator, rest, n, rfl, whole, kind, failed⟩ :=
            ih (.operation left sign own derived) others
          exact ⟨t :: (vs ++ ws), operator, rest, n, by simp, by simpa using whole, kind, failed⟩
      · cases failed

theorem binary_stuck (obstructed : Obstructed d)
    (failed : (Category.binary level).read (d + 1) ts = .error o) (shallow : o.cause ≠ .tooDeep) :
    StuckIn (.binary level) (d + 1) ts o := by
  have whole := failed
  rw [read_binary] at failed
  rcases Outcome.bind_eq_error.mp failed with failed | ⟨⟨left, after⟩, read, others⟩
  · refine (obstructed failed shallow).of_step [] ?_ ?_
    · intro vs derived
      exact ⟨[], by simpa using .operand derived⟩
    · intro e ts' o' _ _ failed
      rw [List.nil_append, read_binary, failed]
      rfl
  · obtain ⟨us, rfl, derived, _⟩ := read_derives d read
    obtain ⟨vs, operator, rest, n, rfl, derived, ⟨s, own, sign⟩, failed⟩ :=
      chain_error (.operand derived) others
    obtain ⟨k, reads⟩ := derived.settles
    have seam : ∀ rest, level.operand.Ends (operator :: rest) := fun _ => Level.ends_operand sign own
    have le : k ≤ d := by
      refine le_of_not_short (fun lt => reads.short lt (seam rest)) ?_
      intro o' failed'
      rw [List.append_assoc, whole] at failed'
      cases failed'
      exact shallow
    have split : us ++ (vs ++ operator :: rest) = us ++ vs ++ [operator] ++ rest := by simp
    rw [split]
    refine (obstructed failed shallow).of_step (us ++ vs ++ [operator]) ?_ ?_
    · intro ws right
      refine ⟨[], ?_⟩
      simpa using Phrase.operation (.of_derives derived) sign own right
    · intro e ts' o' deeper _ failed
      rw [List.append_assoc, List.singleton_append, reads.enough (Nat.le_trans le deeper) (seam ts'),
        List.length_cons, chain_operation sign own, failed]
      rfl

/-- What becomes of a target and its value, behind the equals sign that is named. -/
def assigning (target : Node) (named : List Token) (value : Node × List Token) :
    Except Obstacle (Node × List Token) :=
  match target with
  | .reference name => .ok (.assign name value.1, value.2)
  | _ => .error ⟨.assignmentTarget, named, value.2⟩

theorem read_assigning {t : Token} (sign : t.kind = .symbol .equal)
    (read : (Category.binary .equality).read d ts = .ok (target, t :: after)) :
    Category.expression.read (d + 1) ts =
      Category.expression.read d after >>= assigning target (t :: after) := by
  rw [read_expression, read, Outcome.ok_bind]
  simp only [sign, if_true]
  cases target <;> rfl

theorem assigning_error {value : Node × List Token}
    (failed : assigning target named value = .error o) :
    o = ⟨.assignmentTarget, named, value.2⟩ ∧
      ∀ named' value', ∃ o', assigning target named' value' = .error o' := by
  cases target with
  | reference name => cases failed
  | _ =>
    cases failed
    exact ⟨rfl, fun _ _ => ⟨_, rfl⟩⟩

/-- A target that was read is read again in front of any value, at any greater depth. -/
theorem read_again (derived : Derives (.binary .equality) us target) (sign : t.kind = .symbol .equal)
    (first : (Category.binary .equality).read d (us ++ t :: after) = .ok (target, t :: after))
    (deeper : d ≤ e) (ts : List Token) : Category.expression.read (e + 1) (us ++ t :: ts) =
      Category.expression.read e ts >>= assigning target (t :: ts) := by
  obtain ⟨k, reads⟩ := derived.reads
  have ends : ∀ rest, (Category.binary .equality).Ends (t :: rest) := fun _ =>
    ends_of_kind sign (by decide)
  have le : k ≤ d := by
    refine le_of_not_short (fun lt => reads.short lt (ends after)) ?_
    intro o' failed
    cases failed.symm.trans first
  exact read_assigning sign (reads.enough (Nat.le_trans le deeper) (ends ts))

/-- Behind an operand, only an assignment goes on. -/
theorem equals_of_error (first : (Category.binary .equality).read d ts = .ok (target, after))
    (failed : Category.expression.read (d + 1) ts = .error o) :
    ∃ t after', after = t :: after' ∧ t.kind = .symbol .equal := by
  rw [read_expression, first] at failed
  cases after with
  | nil => cases failed
  | cons t after =>
    refine ⟨t, after, rfl, Decidable.byContradiction fun other => ?_⟩
    rw [Outcome.ok_bind] at failed
    simp only [other, if_false] at failed
    cases failed

/-- A target that is no name stops reading, but only when a value has been read. -/
theorem target_stuck (derived : Derives (.binary .equality) us target)
    (sign : t.kind = .symbol .equal) (value : Derives .expression vs v)
    (again : ∀ e ts, d ≤ e → Category.expression.read (e + 1) (us ++ t :: ts) =
      Category.expression.read e ts >>= assigning target (t :: ts))
    (made : assigning target (t :: (vs ++ rest)) (v, rest) = .error o) :
    StuckIn .expression (d + 1) (us ++ t :: (vs ++ rest)) o := by
  obtain ⟨rfl, always⟩ := assigning_error made
  refine ⟨us, rfl, ⟨vs, ?_⟩, ?_, fun _ => ⟨t, rfl, sign⟩⟩
  · exact .assign (.of_derives derived) sign (.of_derives value)
  · intro e named deeper same
    obtain ⟨e, rfl⟩ : ∃ e', e = e' + 1 := ⟨e - 1, by omega⟩
    obtain ⟨ts, rfl⟩ := List.head?_eq_some_iff.mp same
    have failed : ∃ o', Category.expression.read (e + 1) (us ++ t :: ts) = .error o' := by
      rw [again e ts (Nat.le_of_succ_le_succ deeper)]
      cases second : Category.expression.read e ts with
      | error o' => exact ⟨o', rfl⟩
      | ok value => exact always _ value
    obtain ⟨o', failed⟩ := failed
    exact ⟨o', mem_obstacle?.mpr failed, fun own => absurd rfl own⟩

theorem expression_stuck (obstructed : Obstructed d)
    (failed : Category.expression.read (d + 1) ts = .error o) (shallow : o.cause ≠ .tooDeep) :
    StuckIn .expression (d + 1) ts o := by
  cases first : (Category.binary .equality).read d ts with
  | error o' =>
    rw [read_expression, first] at failed
    cases failed
    refine (obstructed first shallow).of_step [] ?_ ?_
    · intro vs derived
      exact ⟨[], by simpa using .equality derived⟩
    · intro e ts' o' _ _ failed
      rw [List.nil_append, read_expression, failed]
      rfl
  | ok result =>
    obtain ⟨target, after⟩ := result
    obtain ⟨t, after, rfl, sign⟩ := equals_of_error first failed
    obtain ⟨us, rfl, derived, _⟩ := read_derives d first
    have again := fun e ts' (deeper : d ≤ e) => read_again derived sign first deeper ts'
    rw [again d after (Nat.le_refl d)] at failed
    rcases Outcome.bind_eq_error.mp failed with failed | ⟨⟨value, rest⟩, read, made⟩
    · have split : us ++ t :: after = us ++ [t] ++ after := by simp
      rw [split]
      refine (obstructed failed shallow).of_step (us ++ [t]) ?_ ?_
      · intro vs value
        exact ⟨[], by simpa using Phrase.assign (.of_derives derived) sign value⟩
      · intro e ts' o' deeper _ failed
        rw [List.append_assoc, List.singleton_append, again e ts' deeper, failed]
        rfl
    · obtain ⟨vs, rfl, value, _⟩ := read_derives d read
      exact target_stuck derived sign value again made

theorem unary_stuck (obstructed : Obstructed d)
    (failed : Category.unary.read (d + 1) ts = .error o) (shallow : o.cause ≠ .tooDeep) :
    StuckIn .unary (d + 1) ts o := by
  by_cases operator : ∃ t rest, ts = t :: rest ∧ isOneOf prefixOperators t = true
  · obtain ⟨t, rest, rfl, operator⟩ := operator
    obtain ⟨s, own, sign⟩ := isOneOf_iff.mp operator
    rw [read_negation sign own] at failed
    rcases Outcome.bind_eq_error.mp failed with failed | ⟨_, _, made⟩
    · refine (obstructed failed shallow).of_step [t] ?_ ?_
      · intro vs inner
        exact ⟨[], by simpa using .negation sign own inner⟩
      · intro e ts' o' _ _ failed
        rw [List.singleton_append, read_negation sign own, failed]
        rfl
    · cases made
  · have steps : ∀ e ts', ts'.head? = ts.head? →
        Category.unary.read (e + 1) ts' = Category.primary.read e ts' := by
      intro e ts' same
      cases ts' with
      | nil => rfl
      | cons t ts' =>
        obtain ⟨rest, rfl⟩ := List.head?_eq_some_iff.mp same.symm
        have plain : isOneOf prefixOperators t = false := by
          refine Bool.eq_false_iff.mpr fun own => ?_
          exact operator ⟨t, rest, rfl, own⟩
        simp [read_unary, plain]
    rw [steps d ts rfl] at failed
    refine (obstructed failed shallow).of_step [] ?_ ?_
    · intro vs inner
      exact ⟨[], by simpa using .primary inner⟩
    · intro e ts' o' _ same failed
      rw [List.nil_append, steps e ts' same, failed]

theorem primary_stuck (obstructed : Obstructed d)
    (failed : Category.primary.read (d + 1) ts = .error o) (shallow : o.cause ≠ .tooDeep) :
    StuckIn .primary (d + 1) ts o := by
  have viable : ∃ vs, Phrase .primary ([] ++ vs) :=
    ⟨[⟨.number, "1", 1⟩], .literal (by decide)⟩
  cases ts with
  | nil =>
    cases failed
    refine .here (by decide) [] viable fun e named deeper same => ?_
    obtain ⟨e, rfl⟩ : ∃ e', e = e' + 1 := ⟨e - 1, by omega⟩
    obtain rfl := List.head?_eq_none_iff.mp same
    rfl
  | cons t rest =>
    by_cases left : t.kind = .symbol .leftParen
    · have steps : ∀ e ts', Category.primary.read (e + 1) (t :: ts') =
          closed .rightParen .closingParen .grouping e ts' := fun e ts' => read_grouping left e ts'
      rw [steps] at failed
      refine (closed_stuck obstructed (by decide) failed shallow).of_step [t] ?_ ?_
      · rintro _ ⟨us, closing, rfl, inner, right⟩
        exact ⟨[], by simpa using .grouping left inner right⟩
      · intro e ts' o' _ _ failed
        rw [List.singleton_append, steps, failed]
    · have plain : t.kind.isLiteral = false ∧ t.kind ≠ .identifier := by
        constructor
        · refine Bool.eq_false_iff.mpr fun own => ?_
          simp only [read_primary, own, if_true] at failed
          cases failed
        · intro own
          simp only [read_primary, own, if_true, TokenKind.isLiteral] at failed
          cases failed
      have steps : ∀ e ts', Category.primary.read (e + 1) (t :: ts') =
          .error (.here .expression (t :: ts')) := by
        intro e ts'
        simp [read_primary, plain, left]
      rw [steps] at failed
      cases failed
      refine .here (by decide) [] viable fun e named deeper same => ?_
      obtain ⟨e, rfl⟩ : ∃ e', e = e' + 1 := ⟨e - 1, by omega⟩
      obtain ⟨ts', rfl⟩ := List.head?_eq_some_iff.mp same
      exact mem_obstacle?.mpr (steps e ts')

end Expressions

theorem read_obstructed (d : Nat) : Obstructed d := by
  induction d with
  | zero =>
    intro c ts o failed shallow
    rw [read_zero] at failed
    cases failed
    exact absurd rfl shallow
  | succ d ih =>
    intro c ts o failed shallow
    cases c with
    | expression => exact expression_stuck ih failed shallow
    | binary level => exact binary_stuck ih failed shallow
    | unary => exact unary_stuck ih failed shallow
    | primary => exact primary_stuck ih failed shallow

section Statements

variable {ts : List Token} {o : Obstacle}

/-- The texts that follow the keyword of a variable declaration. -/
def Declared (ts : List Token) : Prop :=
  ∀ word : Token, word.kind = .keyword .var → Loose.Declaration (word :: ts)

theorem variable_nameless (other : ∀ name ∈ ts.head?, name.kind ≠ .identifier) (e : Nat) :
    variableDeclaration e ts = .error (.here .variableName ts) := by
  cases ts with
  | nil => rfl
  | cons name ts => simp [variableDeclaration, other name rfl]

theorem variable_initialised {name t : Token} (named : name.kind = .identifier)
    (sign : t.kind = .symbol .equal) (e : Nat) (ts : List Token) :
    variableDeclaration e (name :: t :: ts) =
      closed .semicolon .endOfDeclaration (.declare name) e ts := by
  simp only [variableDeclaration, named, Program.initialValue, sign, if_true]
  rfl

theorem variable_bare {name : Token} (named : name.kind = .identifier)
    (other : ∀ t ∈ ts.head?, t.kind ≠ .symbol .equal) (e : Nat) :
    variableDeclaration e (name :: ts) = (do
      let rest ← require .semicolon .endOfDeclaration ts
      return (.declare name .missing, rest)) := by
  have none : Program.initialValue e ts = .ok (.missing, ts) := by
    cases ts with
    | nil => rfl
    | cons t ts => simp [Program.initialValue, other t rfl]
  simp only [variableDeclaration, named, if_true, none]
  rfl

/-- Reading a variable stops at its name, at the semicolon behind it, or in its value. -/
theorem variable_stuck (failed : variableDeclaration depth ts = .error o)
    (shallow : o.cause ≠ .tooDeep) :
    Stuck (fun e ts => obstacle? (variableDeclaration e ts)) Declared depth ts o := by
  by_cases nameless : ∀ name ∈ ts.head?, name.kind ≠ .identifier
  · rw [variable_nameless nameless] at failed
    cases failed
    refine .here (by decide) [] ⟨[⟨.identifier, "a", 1⟩, mark .semicolon], fun word opening => ?_⟩ ?_
    · exact .bare opening rfl rfl
    · intro e ts' deeper same
      exact mem_obstacle?.mpr (variable_nameless (same ▸ nameless) e)
  obtain ⟨name, first, named⟩ : ∃ name, ts.head? = some name ∧ name.kind = .identifier := by
    simpa using nameless
  obtain ⟨rest, rfl⟩ := List.head?_eq_some_iff.mp first
  by_cases bare : ∀ t ∈ rest.head?, t.kind ≠ .symbol .equal
  · rw [variable_bare named bare] at failed
    rcases Outcome.bind_eq_error.mp failed with required | ⟨_, _, made⟩
    · obtain ⟨rfl, other⟩ := require_error_iff.mp required
      refine .here (by decide) [name] ⟨[mark .semicolon], fun word opening => ?_⟩ ?_
      · exact .bare opening named rfl
      · intro e ts' deeper same
        have required := require_error_iff.mpr ⟨(rfl : Obstacle.here .endOfDeclaration ts' = _),
          same ▸ other⟩
        rw [mem_obstacle?, List.singleton_append, variable_bare named (same ▸ bare), required]
        rfl
    · cases made
  · obtain ⟨t, second, sign⟩ : ∃ t, rest.head? = some t ∧ t.kind = .symbol .equal := by
      simpa using bare
    obtain ⟨after, rfl⟩ := List.head?_eq_some_iff.mp second
    rw [variable_initialised named sign] at failed
    refine (closed_stuck (read_obstructed depth) (by decide) failed shallow).within [name, t] ?_ ?_
    · rintro _ ⟨us, semicolon, rfl, value, closing⟩
      refine ⟨[], fun word opening => ?_⟩
      simpa using .initialised opening named sign value closing
    · intro e deeper
      refine ⟨e, deeper, fun ts' _ o' met => ?_⟩
      rw [mem_obstacle?] at met ⊢
      exact (variable_initialised named sign e ts').trans met

end Statements

/-- The first obstacle met in an attempt, inside of a block or not. -/
def firstObstacle (a : Attempt) : Option Obstacle := a.settle.obstacles.head?

theorem firstObstacle_eq (a : Attempt) :
    firstObstacle a = a.inner.head?.or (obstacle? a.outcome) := by
  cases outcome : a.outcome with
  | ok result =>
    rw [firstObstacle, settle_ok outcome]
    exact Option.or_none.symm
  | error o =>
    rw [firstObstacle, settle_error outcome, List.head?_append]
    rfl

theorem firstObstacle_plain (outcome : Except Obstacle (Node × List Token)) :
    firstObstacle ⟨[], outcome⟩ = obstacle? outcome := firstObstacle_eq ⟨[], outcome⟩

/-- The first obstacle met in a sequence of declarations. -/
def firstOfMany (done : List Token → Bool) (l : Nat) (ts : List Token) : Option Obstacle :=
  (many (declaration l) done ts.length ts).obstacles.head?

/-- Whatever stops a declaration within `l` levels of blocks, but for want of depth, is an obstacle. -/
def Hindered (l : Nat) : Prop :=
  ∀ {ts : List Token} {o : Obstacle}, o ∈ firstObstacle (declaration l ts) → o.cause ≠ .tooDeep →
    Stuck (fun l ts => firstObstacle (declaration l ts)) Loose.Declaration l ts o

/-- Whether a sequence is over shows at the next token. -/
def Foresees (done : List Token → Bool) : Prop := ∀ ts us, ts.head? = us.head? → done ts = done us

theorem foresees_blockDone : Foresees blockDone := by
  intro ts us same
  cases us with
  | nil => rw [List.head?_eq_none_iff.mp same]
  | cons t us =>
    obtain ⟨ts, rfl⟩ := List.head?_eq_some_iff.mp same
    rfl

theorem foresees_isEmpty : Foresees List.isEmpty := by
  intro ts us same
  cases us with
  | nil => rw [List.head?_eq_none_iff.mp same]
  | cons t us =>
    obtain ⟨ts, rfl⟩ := List.head?_eq_some_iff.mp same
    rfl

section Declarations

variable {l : Nat} {ts : List Token} {o : Obstacle} {done : List Token → Bool}

theorem firstOfMany_next (going : done ts = false) (met : o ∈ firstObstacle (declaration l ts))
    (some : ts ≠ []) : o ∈ firstOfMany done l ts := by
  obtain ⟨t, ts, rfl⟩ := List.exists_cons_of_ne_nil some
  rw [firstOfMany, List.length_cons, many_next going, List.head?_append]
  rw [firstObstacle, Option.mem_def] at met
  rw [met]
  rfl

/-- A declaration that meets no obstacle is read. -/
theorem declares_of_clear (clear : (declaration l ts).settle.obstacles = []) :
    ∃ us rest n k, ts = us ++ rest ∧ declaration l ts = ⟨[], .ok (n, rest)⟩ ∧
      Declaration (fun _ => False) us n ∧ Declares us n k ∧ k ≤ l := by
  cases outcome : (declaration l ts).outcome with
  | error o =>
    rw [settle_error outcome] at clear
    simp at clear
  | ok result =>
    obtain ⟨n, rest⟩ := result
    rw [settle_ok outcome] at clear
    have slack : Slack (fun _ => False) (declaration l ts).inner := fun some => absurd clear some
    obtain ⟨us, whole, derived⟩ := (declaration_faithful l).derives slack outcome
    obtain ⟨k, declares⟩ := derived.declares
    refine ⟨us, rest, n, k, whole, ?_, derived, declares, ?_⟩
    · rw [← clear, ← outcome]
    · refine Nat.le_of_not_lt fun lt => ?_
      have deep : Deep (declaration l (us ++ rest)).settle.obstacles := declares.short lt
      obtain ⟨o, mem, _⟩ := deep
      rw [← whole, settle_ok outcome, clear] at mem
      cases mem

/-- A sequence stops where its first declaration does. -/
theorem Stuck.first (foresees : Foresees done) (going : done (t :: ts) = false)
    (h : Stuck (fun l ts => firstObstacle (declaration l ts)) Loose.Declaration l (t :: ts) o) :
    Stuck (firstOfMany done) Loose.Program l (t :: ts) o := by
  refine h.within [] ?_ fun e deeper => ⟨e, deeper, ?_⟩
  · intro vs derived
    exact ⟨[], by simpa using Loose.Program.next derived .done⟩
  · intro ts' same o' met
    refine firstOfMany_next (foresees _ _ same ▸ going) met ?_
    rintro rfl
    cases same

/-- Behind a declaration that is read, it stops where what is left does. -/
theorem Stuck.behind (passes : Passes done) (derived : Declaration (fun _ => False) us n)
    (declares : Declares us n k) (le : k ≤ l) (h : Stuck (firstOfMany done) Loose.Program l ts o) :
    Stuck (firstOfMany done) Loose.Program l (us ++ ts) o := by
  refine h.within us ?_ fun e deeper => ⟨e, deeper, ?_⟩
  · intro vs others
    exact ⟨[], by simpa using .next (.of_derives derived) others⟩
  · intro ts' _ o' met
    have all := declares.next derived.opens .done
    have le : max k 0 ≤ e := by omega
    have read : many (declaration e) done (us ++ [] ++ ts').length (us ++ [] ++ ts') = _ :=
      all.enough le passes (Nat.le_refl _)
    rw [List.append_nil] at read
    rw [firstOfMany, read]
    exact met

theorem many_stuck (hindered : Hindered l) (passes : Passes done) (foresees : Foresees done)
    (enough : ts.length ≤ fuel) (met : o ∈ (many (declaration l) done fuel ts).obstacles.head?)
    (shallow : o.cause ≠ .tooDeep) : Stuck (firstOfMany done) Loose.Program l ts o := by
  induction fuel generalizing ts with
  | zero => cases met
  | succ fuel ih =>
    cases going : done ts with
    | true =>
      rw [many_done going] at met
      cases met
    | false =>
    obtain ⟨t, ts, rfl⟩ : ∃ t us, ts = t :: us := by
      refine List.exists_cons_of_ne_nil ?_
      rintro rfl
      cases going.symm.trans passes.stops
    rw [many_next going, List.head?_append] at met
    cases first : (declaration l (t :: ts)).settle.obstacles with
    | cons o' os =>
      rw [first] at met
      cases met
      have met : o ∈ firstObstacle (declaration l (t :: ts)) := by
        rw [firstObstacle, first]
        rfl
      exact .first foresees going (hindered met shallow)
    | nil =>
      obtain ⟨us, rest, n, k, whole, read, derived, declares, le⟩ := declares_of_clear first
      have shorter : rest.length ≤ fuel := by
        have lengths := congrArg List.length whole
        have some := List.length_pos_iff.mpr derived.ne_nil
        simp only [List.length_cons, List.length_append] at lengths enough
        omega
      rw [first, settle_ok (congrArg _ read)] at met
      rw [whole]
      exact .behind passes derived declares le (ih shorter met)

/-- A sequence in which nothing stops reading is read, however deep reading may go beyond that. -/
theorem declaresAll_of_clear (passes : Passes done)
    (clear : (many (declaration l) done ts.length ts).obstacles = []) :
    ∃ us rest ns k, ts = us ++ rest ∧ (many (declaration l) done ts.length ts).rest = rest ∧
      done rest = true ∧ Declarations (fun _ => False) us ns ∧ DeclaresAll us ns k ∧ k ≤ l := by
  have slack : Slack (fun _ => False) (many (declaration l) done ts.length ts).obstacles :=
    fun some => absurd clear some
  obtain ⟨ending, us, whole, derived⟩ :=
    (declaration_faithful l).many_derives passes.stops (Nat.le_refl ts.length) slack
  obtain ⟨k, declares⟩ := derived.declares
  refine ⟨us, _, _, k, whole, rfl, ending, derived, declares, Nat.le_of_not_lt fun lt => ?_⟩
  have deep : Deep (many (declaration l) done ts.length (us ++ _)).obstacles :=
    declares.short lt passes (Nat.le_of_eq (congrArg _ whole.symm))
  obtain ⟨o, mem, _⟩ := deep
  rw [← whole, clear] at mem
  cases mem

/-- The declaration is read as one that starts with a keyword, or with neither that nor a brace. -/
theorem plain_stuck (us : List Token)
    {x : Nat → List Token → Except Obstacle (Node × List Token)}
    (steps : ∀ l ts', ts'.head? = ts.head? →
      declaration (l + 1) (us ++ ts') = ⟨[], x (stepsPerBlock * (l + 1)) ts'⟩)
    (stuck : ∀ {d o}, x d ts = .error o → o.cause ≠ .tooDeep →
      Stuck (fun e ts => obstacle? (x e ts)) language d ts o)
    (completes : ∀ vs, language vs → Loose.Declaration (us ++ vs))
    (met : o ∈ firstObstacle (declaration (l + 1) (us ++ ts))) (shallow : o.cause ≠ .tooDeep) :
    Stuck (fun l ts => firstObstacle (declaration l ts)) Loose.Declaration (l + 1) (us ++ ts) o := by
  rw [steps l ts rfl, firstObstacle_plain, mem_obstacle?] at met
  refine (stuck met shallow).within us ?_ fun e deeper => ?_
  · intro vs derived
    exact ⟨[], by simpa using completes vs derived⟩
  · obtain ⟨e, rfl⟩ : ∃ e', e = e' + 1 := ⟨e - 1, by omega⟩
    refine ⟨stepsPerBlock * (e + 1), Nat.mul_le_mul_left _ deeper, fun ts' same o' met => ?_⟩
    rw [steps e ts' same, firstObstacle_plain]
    exact met

theorem terminated_stuck (make : Node → Node) (cause : ParseError.Cause)
    (own : cause ≠ .assignmentTarget) (failed : terminated make cause d ts = .error o)
    (shallow : o.cause ≠ .tooDeep) :
    Stuck (fun e ts => obstacle? (terminated make cause e ts)) (Closed .semicolon) d ts o :=
  closed_stuck (read_obstructed d) own failed shallow

theorem firstObstacle_block {brace : Token} (opening : brace.kind = .symbol .leftBrace) (l : Nat)
    (ts : List Token) : firstObstacle (declaration (l + 1) (brace :: ts)) =
      (firstOfMany blockDone l ts).or (obstacle? (do
        let rest ← require .rightBrace .endOfBlock (many (declaration l) blockDone ts.length ts).rest
        return (Node.block (many (declaration l) blockDone ts.length ts).statements, rest))) := by
  rw [declaration_block opening, firstObstacle_eq]
  rfl

/-- A block is stopped by what stops its body, or by the end of the input. -/
theorem block_stuck (hindered : Hindered l) {brace : Token}
    (opening : brace.kind = .symbol .leftBrace)
    (met : o ∈ firstObstacle (declaration (l + 1) (brace :: ts))) (shallow : o.cause ≠ .tooDeep) :
    Stuck (fun l ts => firstObstacle (declaration l ts)) Loose.Declaration (l + 1) (brace :: ts) o := by
  rw [firstObstacle_block opening, firstOfMany] at met
  cases inner : (many (declaration l) blockDone ts.length ts).obstacles with
  | cons o' os =>
    have met : o ∈ (many (declaration l) blockDone ts.length ts).obstacles.head? := by
      rw [inner] at met ⊢
      exact met
    have stuck :=
      many_stuck hindered passes_blockDone foresees_blockDone (Nat.le_refl _) met shallow
    refine stuck.within [brace] ?_ fun e deeper => ?_
    · intro vs body
      exact ⟨[mark .rightBrace], .block opening body rfl⟩
    · obtain ⟨e, rfl⟩ : ∃ e', e = e' + 1 := ⟨e - 1, by omega⟩
      refine ⟨e, Nat.le_of_succ_le_succ deeper, fun ts' _ o' met => ?_⟩
      rw [List.singleton_append, firstObstacle_block opening, Option.mem_def.mp met]
      rfl
  | nil =>
    obtain ⟨us, rest, ns, k, rfl, left, ending, derived, declares, le⟩ :=
      declaresAll_of_clear passes_blockDone inner
    rw [inner, left] at met
    rcases Outcome.bind_eq_error.mp (mem_obstacle?.mp met) with required | ⟨_, _, made⟩
    · obtain ⟨rfl, other⟩ := require_error_iff.mp required
      obtain rfl : rest = [] := by
        cases rest with
        | nil => rfl
        | cons t rest => exact absurd (of_decide_eq_true ending) (other t rfl)
      refine .here (by decide) (brace :: us) ⟨[mark .rightBrace], ?_⟩ fun e named deeper same => ?_
      · exact .block opening (.of_derives derived) rfl
      · obtain ⟨e, rfl⟩ : ∃ e', e = e' + 1 := ⟨e - 1, by omega⟩
        obtain rfl := List.head?_eq_none_iff.mp same
        have read : many (declaration e) blockDone (us ++ []).length (us ++ []) = _ :=
          declares.enough (by omega) passes_blockDone (Nat.le_refl _)
        rw [List.cons_append, firstObstacle_block opening, firstOfMany, read]
        rfl
    · cases made

theorem declaration_hindered (l : Nat) : Hindered l := by
  induction l with
  | zero =>
    intro ts o met shallow
    cases met
    exact absurd rfl shallow
  | succ l ih =>
    intro ts o met shallow
    by_cases declares : ∃ word rest, ts = word :: rest ∧ word.kind = .keyword .var
    · obtain ⟨word, rest, rfl, opening⟩ := declares
      refine plain_stuck [word] (fun l ts' _ => ?_) variable_stuck ?_ met shallow
      · simp [declaration, opening]
      · intro vs declared
        exact declared word opening
    by_cases prints : ∃ word rest, ts = word :: rest ∧ word.kind = .keyword .print
    · obtain ⟨word, rest, rfl, opening⟩ := prints
      refine plain_stuck [word] (fun l ts' _ => ?_)
        (terminated_stuck .print .endOfPrint (by decide)) ?_ met shallow
      · simp [declaration, opening]
      · rintro _ ⟨us, semicolon, rfl, value, closing⟩
        exact .print opening value closing
    by_cases block : ∃ brace rest, ts = brace :: rest ∧ brace.kind = .symbol .leftBrace
    · obtain ⟨brace, rest, rfl, opening⟩ := block
      exact block_stuck ih opening met shallow
    · refine plain_stuck [] (fun l ts' same => ?_)
        (terminated_stuck .expression .endOfExpression (by decide)) ?_ met shallow
      · refine declaration_other (fun t first => ?_) l
        obtain ⟨rest, rfl⟩ := List.head?_eq_some_iff.mp (same ▸ first)
        exact ⟨fun kind => declares ⟨t, rest, rfl, kind⟩, fun kind => prints ⟨t, rest, rfl, kind⟩,
          fun kind => block ⟨t, rest, rfl, kind⟩⟩
      · rintro _ ⟨us, semicolon, rfl, value, closing⟩
        exact .expression value closing

end Declarations

end Scriptlet.Grammar
