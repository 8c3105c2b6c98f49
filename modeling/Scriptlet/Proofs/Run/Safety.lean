import Scriptlet.Proofs.Grammar
import Scriptlet.Proofs.Run.Steps
import Scriptlet.Proofs.Scopes.Bindings
import Scriptlet.Proofs.Token.Numeral

/-! Trees that derive from tokens run safely: every scope that is opened is left again, and nothing
ends a run but an error that its script can be blamed for, or too much nesting. Stretches of tokens
may have been left out of the derivation, so this covers trees recovered from malformed scripts. -/
namespace Scriptlet

/-- The errors for which a script can be blamed. -/
inductive RuntimeError.Scripted : RuntimeError → Prop where
  | undefinedVariable (name : String) : Scripted (.undefinedVariable name)
  | divisionByZero : Scripted .divisionByZero
  | operand (other : value.isNumber = false) : Scripted (.operand value)
  | uninterpretable (shown : String) : Scripted (.uninterpretable shown)
  | tooDeep : Scripted .tooDeep

/-- The faults for which a script can be blamed. -/
inductive Fault.Scripted : Fault → Prop where
  | error (own : e.Scripted) : Scripted (.error e)
  | tooDeep : Scripted .tooDeep

/-- A tree whose rendering can only fail for being too deep. -/
def Node.Renders (n : Node) : Prop := ∀ budget, Outcome.FailsOnly (· = .tooDeep) (n.render budget)

namespace Action

open Outcome (FailsOnly)

/-- Scopes are left as often as they are entered. -/
def safety : Law where
  related m m' := m'.scopes.depth = m.scopes.depth
  refl _ := rfl
  trans first second := second.trans first
  fault := Fault.Scripted

theorem lookup_safe (name : String) : Obeys safety (lookup name) := by
  intro m
  rw [exec_lookup]
  split
  · exact ⟨rfl, FailsOnly.ok _⟩
  · exact ⟨rfl, FailsOnly.error (.error (.undefinedVariable name))⟩

theorem define_safe (name : String) (value : Value) : Obeys safety (define name value) := by
  intro m
  rw [exec_define]
  exact ⟨rfl, FailsOnly.ok ()⟩

theorem assign_safe (name : String) (value : Value) : Obeys safety (assign name value) := by
  intro m
  rw [exec_assign]
  split
  next scopes assigned => exact ⟨Scopes.depth_assign? assigned, FailsOnly.ok ()⟩
  · exact ⟨rfl, FailsOnly.error (.error (.undefinedVariable name))⟩

theorem print_safe (line : String) : Obeys safety (print line) := by
  intro m
  rw [exec_print]
  exact ⟨rfl, FailsOnly.ok ()⟩

theorem record_safe (level : Nat) (event : TraceEvent) : Obeys safety (record level event) := by
  intro m
  rw [exec_record]
  refine ⟨?_, FailsOnly.ok ()⟩
  split <;> rfl

theorem depth_safe : Obeys safety depth := by
  intro m
  rw [exec_depth]
  exact ⟨rfl, FailsOnly.ok _⟩

theorem fail_safe (own : e.Scripted) : Obeys safety (fail e : Action α) := .throw (.error own)

/-- The scope that a body is given is there to be dropped when the body ends. -/
theorem within_safe {body : Action α} (safe : Obeys safety body) : Obeys safety (within body) := by
  intro m
  obtain ⟨left, allowed⟩ := safe { m with scopes := m.scopes.push }
  obtain ⟨scope, outer, popped, depth⟩ := Scopes.pop?_of_depth_push left
  rw [exec_within, popped]
  exact ⟨depth, allowed⟩

theorem shown_safe {n : Node} (renders : n.Renders) (budget : Nat) :
    Obeys safety (shown budget n) := by
  unfold shown
  split
  · exact .pure _
  next f failed =>
    rw [renders budget f failed]
    exact .throw .tooDeep

theorem traceValue_safe {n : Node} (renders : n.Renders) (level budget : Nat) (value : Value) :
    Obeys safety (traceValue level budget n value) := by
  unfold traceValue
  split
  · exact (shown_safe renders budget).bind fun _ => (record_safe level _).bind fun _ => .pure value
  · exact .pure value

theorem traceStatement_safe {n : Node} (renders : n.Renders) (level budget : Nat) :
    Obeys safety (traceStatement level budget n) := by
  unfold traceStatement
  split
  · exact (shown_safe renders budget).bind fun _ => record_safe level _
  · exact .pure ()

theorem reassign_safe (level : Nat) (name : Token) (value : Value) :
    Obeys safety (reassign level name value) :=
  (assign_safe name.lexeme value).bind fun _ => (record_safe level _).bind fun _ => .pure value

theorem declare_safe (level : Nat) (name : Token) (value : Value) :
    Obeys safety (declare level name value) :=
  (define_safe name.lexeme value).bind fun _ => record_safe level _

theorem block_safe {body : Action Unit} (safe : Obeys safety body) (level : Nat) :
    Obeys safety (block level body) := by
  have inner := depth_safe.bind fun d => (record_safe level (.pushed d)).bind fun _ => safe
  exact (within_safe inner).bind fun _ => depth_safe.bind fun d => record_safe level (.popped (d + 1))

theorem unary_safe {operator : Token} (sign : operator.kind = .symbol s)
    (own : s ∈ Grammar.prefixOperators) (value : Value) : Obeys safety (unary operator value) := by
  have cases : s = .bang ∨ s = .minus := by simpa [Grammar.prefixOperators] using own
  unfold unary
  rw [sign]
  rcases cases with rfl | rfl
  · exact .pure _
  · cases value with
    | number x => exact .pure _
    | _ => exact fail_safe (.operand rfl)

end Action

/-- A division that the guard lets through has a quotient. -/
theorem TokenKind.onValues_ok {operator : TokenKind} {left right : Value}
    (divisible : operator.dividesByZero right = false)
    (applies : operator.onValues left right = some result) : ∃ v, result = .ok v := by
  unfold onValues at applies
  split at applies
  next s x y =>
    cases s with
    | slash =>
      have nonzero : (y == 0) = false := divisible
      simp only [Symbol.onNumbers, nonzero, Option.some.injEq] at applies
      exact ⟨_, applies.symm⟩
    | _ => cases applies <;> exact ⟨_, rfl⟩
  · cases applies
    exact ⟨_, rfl⟩
  · cases applies

theorem Action.binary_safe {n : Node} (renders : n.Renders) (budget : Nat) (operator : Token)
    (left right : Value) : Obeys safety (binary budget n operator left right) := by
  unfold binary
  split
  · exact fail_safe .divisionByZero
  next divisible =>
    split
    next applies =>
      obtain ⟨v, rfl⟩ := TokenKind.onValues_ok (Bool.not_eq_true _ ▸ divisible) applies
      exact .liftM (Outcome.FailsOnly.ok v)
    · exact (shown_safe renders budget).bind fun text => fail_safe (.uninterpretable text)

/-- A literal token has a value if its text is a numeral whenever it has to be. -/
theorem Token.value_ok {t : Token} (own : t.kind ∈ Grammar.literals) (numerals : Numerals [t]) :
    ∃ v, t.value = .ok v := by
  have cases : t.kind = .number ∨ t.kind = .string ∨ t.kind = .keyword .true ∨
      t.kind = .keyword .false ∨ t.kind = .keyword .nil := by
    simpa [Grammar.literals] using own
  unfold Token.value
  rcases cases with kind | kind | kind | kind | kind <;> rw [kind]
  · obtain ⟨x, read⟩ := Option.isSome_iff_exists.mp (numerals t (by simp) kind)
    simp only [read]
    exact ⟨_, rfl⟩
  all_goals exact ⟨_, rfl⟩

theorem Node.Renders.of_step {n : Node}
    (step : ∀ b, Outcome.FailsOnly (· = .tooDeep) (n.render (b + 1))) : n.Renders := by
  intro budget
  cases budget with
  | zero =>
    rw [Node.render.eq_def]
    exact .error rfl
  | succ b => exact step b

namespace Grammar

theorem Derives.ne_missing (h : Derives c ts n) : n ≠ .missing := by
  induction h with
  | equality _ ih | operand _ ih | primary _ ih => exact ih
  | _ => nofun

theorem Derives.renders (h : Derives c ts n) : n.Renders := by
  induction h with
  | equality _ ih | operand _ ih | primary _ ih => exact ih
  | literal _ | reference _ => exact .of_step fun b => .ok _
  | operation _ _ _ _ left right =>
    exact .of_step fun b => (left b).bind fun _ => (right b).bind fun _ => .ok _
  | assign _ _ _ ih | negation _ _ _ ih | grouping _ _ _ ih =>
    exact .of_step fun b => (ih b).bind fun _ => .ok _

theorem renders_declare {n : Node} (renders : n.Renders) (given : n ≠ .missing) (name : Token) :
    (Node.declare name n).Renders := by
  refine .of_step ?_
  intro b
  rw [Node.render_declare given]
  exact (renders b).bind fun _ => .ok _

mutual

theorem Declaration.renders : ∀ {ts n}, Declaration gap ts n → n.Renders
  | _, _, .bare _ _ _ => .of_step fun _ => .ok _
  | _, _, .initialised _ _ _ value _ => renders_declare value.renders value.ne_missing _
  | _, _, .print _ value _ => .of_step fun b => (value.renders b).bind fun _ => .ok _
  | _, _, .expression value _ => .of_step fun b => (value.renders b).bind fun _ => .ok _
  | _, _, .block _ body _ => .of_step fun b => (body.renders (b - 1)).bind fun _ => .ok _

theorem Declarations.renders : ∀ {ts ns}, Declarations gap ts ns →
    ∀ budget, Outcome.FailsOnly (· = .tooDeep) (Node.renderAll budget ns)
  | _, _, .done, _ => .ok _
  | _, _, .next first others, budget =>
    (first.renders budget).bind fun _ => (others.renders budget).bind fun _ => .ok _
  | _, _, .skip _ others, budget => others.renders budget

end

end Grammar

namespace Action

theorem evaluate_safe {n : Node} (renders : n.Renders) {level : Nat}
    (result : ∀ budget, Obeys safety (n.result level budget)) (budget : Nat) :
    Obeys safety (n.evaluate level budget) := by
  rw [Node.evaluate_eq]
  split
  · exact .throw .tooDeep
  · exact (result budget).bind fun value => traceValue_safe renders level (budget - 1) value

theorem execute_safe {n : Node} (renders : n.Renders) {level : Nat}
    (effect : ∀ budget, Obeys safety (n.effect level budget)) (budget : Nat) :
    Obeys safety (n.execute level budget) := by
  rw [Node.execute_eq]
  split
  · exact .throw .tooDeep
  · exact (traceStatement_safe renders level (budget - 1)).bind fun _ => effect budget

end Action

namespace Grammar

open Scriptlet.Action (Obeys safety)

theorem Derives.safe (h : Derives c ts n) (numerals : Numerals ts) (level : Nat) :
    ∀ budget, Obeys safety (n.evaluate level budget) := by
  have renders := h.renders
  induction h with
  | equality _ ih | operand _ ih | primary _ ih => exact ih numerals renders
  | literal own =>
    refine Action.evaluate_safe renders ?_
    intro budget
    obtain ⟨v, value⟩ := Token.value_ok own numerals
    exact .liftM (value ▸ Outcome.FailsOnly.ok v)
  | reference _ => exact Action.evaluate_safe renders fun budget => Action.lookup_safe _
  | assign _ _ value ih =>
    refine Action.evaluate_safe renders ?_
    intro budget
    exact (ih numerals.tail.tail value.renders _).bind (Action.reassign_safe level _)
  | operation left _ _ right leftSafe rightSafe =>
    refine Action.evaluate_safe renders ?_
    intro budget
    exact (leftSafe numerals.left left.renders _).bind fun x =>
      (rightSafe numerals.right.tail right.renders _).bind fun y =>
        Action.binary_safe renders _ _ x y
  | negation sign own inner ih =>
    refine Action.evaluate_safe renders ?_
    intro budget
    exact (ih numerals.tail inner.renders _).bind (Action.unary_safe sign own)
  | grouping _ inner _ ih =>
    exact Action.evaluate_safe renders fun budget => ih numerals.tail.left inner.renders _

theorem Derives.initialValue_safe (h : Derives c ts n) (numerals : Numerals ts) (level budget : Nat) :
    Obeys safety (n.initialValue level budget) := by
  rw [Node.initialValue_of_ne_missing h.ne_missing]
  exact h.safe numerals level budget

mutual

theorem Declaration.safe : ∀ {ts n}, Declaration gap ts n → Numerals ts → ∀ level budget,
    Obeys safety (n.execute level budget)
  | _, _, declared@(.bare _ _ _), _, level, budget => by
    apply Action.execute_safe declared.renders
    intro b
    exact (Obeys.pure Value.nil).bind (Action.declare_safe level _)
  | _, _, declared@(.initialised _ _ _ value _), numerals, level, budget => by
    apply Action.execute_safe declared.renders
    intro b
    exact (value.initialValue_safe numerals.tail.tail.tail.left level (b - 1)).bind
      (Action.declare_safe level _)
  | _, _, declared@(.print _ value _), numerals, level, budget => by
    apply Action.execute_safe declared.renders
    intro b
    exact (value.safe numerals.tail.left level (b - 1)).bind fun v => Action.print_safe v.display
  | _, _, declared@(.expression value _), numerals, level, budget => by
    apply Action.execute_safe declared.renders
    intro b
    exact (value.safe numerals.left level (b - 1)).discard
  | _, _, declared@(.block _ body _), numerals, level, budget => by
    apply Action.execute_safe declared.renders
    intro b
    exact Action.block_safe (body.safe numerals.tail.left level (b - 1)) level

/-- The statements of a text run safely, also if parts of the text were left out. -/
theorem Declarations.safe : ∀ {ts ns}, Declarations gap ts ns → Numerals ts → ∀ level budget,
    Obeys safety (Node.executeAll level ns budget)
  | _, _, .done, _, level, budget => by
    rw [Node.executeAll_nil]
    exact .pure ()
  | _, _, .next first others, numerals, level, budget => by
    rw [Node.executeAll_cons]
    exact (first.safe numerals.left level budget).bind fun _ =>
      others.safe numerals.right level budget
  | _, _, .skip _ others, numerals, level, budget => others.safe numerals.right level budget

end

end Grammar

/-- At the end of a run no fault but an error is left. -/
theorem interpret_safe {level : Nat} {ns : List Node}
    (safe : ∀ budget, Action.Obeys Action.safety (Node.executeAll level ns budget)) (m : Machine) :
    ((interpret level ns).exec m).2.scopes.depth = m.scopes.depth ∧
      ∀ f, ((interpret level ns).exec m).1 = .error f → ∃ e, f = .error e ∧ e.Scripted := by
  obtain ⟨left, allowed⟩ := safe nestingLimit m
  rw [exec_interpret]
  rcases run : (Node.executeAll level ns nestingLimit).exec m with ⟨f | _, m'⟩ <;>
    rw [run] at left allowed
  · cases allowed f rfl with
    | error own => exact ⟨left, Outcome.FailsOnly.error ⟨_, rfl, own⟩⟩
    | tooDeep => exact ⟨left, Outcome.FailsOnly.error ⟨_, rfl, .tooDeep⟩⟩
  · exact ⟨left, Outcome.FailsOnly.ok _⟩

end Scriptlet
