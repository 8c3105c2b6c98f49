import Scriptlet.Proofs.Run.Steps

/-! Properties of runs that come from the few actions of which runs are made. Where names matter, a
property may be asked only of actions on the names that stand in a tree, each in the role that the
tree gives it; then it holds of all that the tree does. -/
namespace Scriptlet

/-- What a tree does with a name. -/
inductive Role where
  | read | change | declare
  deriving DecidableEq, Repr

structure Occurrence where
  role : Role
  name : Token

namespace Node

/-- The names in a tree, in the order in which a run comes to them. -/
def occurrences : Node → List Occurrence
  | missing | token _ | literal _ => []
  | reference name => [⟨.read, name⟩]
  | grouping n | unary _ n | print n | expression n => n.occurrences
  | assign name value => value.occurrences ++ [⟨.change, name⟩]
  | declare name initial => initial.occurrences ++ [⟨.declare, name⟩]
  | binary left _ right => left.occurrences ++ right.occurrences
  | block statements => occurrencesAll statements
where
  occurrencesAll : List Node → List Occurrence
    | [] => []
    | n :: ns => n.occurrences ++ occurrencesAll ns

end Node

/-- The name for want of which a run ended. -/
def Fault.unbound? : Fault → Option String
  | error (.undefinedVariable name) => some name
  | _ => none

theorem Token.value_bound (t : Token) : Outcome.FailsOnly (·.unbound? = none) t.value := by
  unfold Token.value
  split
  · split
    · exact .ok _
    · exact .error rfl
  · exact .ok _
  · exact .ok _
  · exact .ok _
  · exact .ok _
  · exact .error rfl

theorem TokenKind.onValues_bound {operator : TokenKind} {left right : Value}
    (applies : operator.onValues left right = some result) :
    Outcome.FailsOnly (·.unbound? = none) result := by
  unfold onValues at applies
  split at applies
  next s x y =>
    cases s with
    | slash =>
      simp only [Symbol.onNumbers, Option.some.injEq] at applies
      subst applies
      split
      · exact .error rfl
      · exact .ok _
    | _ => cases applies <;> exact .ok _
  · cases applies
    exact .ok _
  · cases applies

namespace Action

/-- All names that occur are used as they may be. -/
def Allowed (own : Role → String → Prop) (os : List Occurrence) : Prop :=
  ∀ o ∈ os, own o.role o.name.lexeme

theorem Allowed.left {own : Role → String → Prop} (h : Allowed own (os ++ qs)) : Allowed own os :=
  fun o mem => h o (List.mem_append_left qs mem)

theorem Allowed.right {own : Role → String → Prop} (h : Allowed own (os ++ qs)) : Allowed own qs :=
  fun o mem => h o (List.mem_append_right os mem)

/-- Any name may be used in any role. -/
def anyName : Role → String → Prop := fun _ _ => True

theorem allowed_anyName (os : List Occurrence) : Allowed anyName os := fun _ _ => trivial

/-- The property is passed on by all of which the value of an expression is made. Only the use of a
name can end in the fault of an unbound one. -/
structure ClosedOnValues (own : Role → String → Prop) (P : ∀ {α : Type}, Action α → Prop) :
    Prop where
  pure {α : Type} (x : α) : P (pure x : Action α)
  throw {α : Type} {f : Fault} (bound : f.unbound? = none) : P (throw f : Action α)
  bind {α β : Type} {a : Action α} {f : α → Action β} (first : P a) (next : ∀ x, P (f x)) :
    P (a >>= f)
  lookup {name : String} (allowed : own .read name) : P (lookup name)
  assign {name : String} (allowed : own .change name) (value : Value) : P (assign name value)
  record (level : Nat) (event : TraceEvent) : P (record level event)

namespace ClosedOnValues

variable {own : Role → String → Prop} {P : ∀ {α : Type}, Action α → Prop}
  (closed : ClosedOnValues own P)
include closed

theorem fail {e : RuntimeError} (bound : (Fault.error e).unbound? = none) :
    P (fail e : Action α) := closed.throw bound

theorem liftM {x : Except Fault α} (bound : Outcome.FailsOnly (·.unbound? = none) x) :
    P (liftM x : Action α) := by
  cases x with
  | error f => exact closed.throw (bound f rfl)
  | ok a => exact closed.pure a

theorem discard {a : Action α} (h : P a) : P (discard a) := by
  rw [discard_eq]
  exact closed.bind h fun _ => closed.pure _

theorem shown (budget : Nat) (n : Node) : P (shown budget n) := by
  unfold Action.shown
  split
  · exact closed.pure _
  next f _ => cases f <;> exact closed.throw rfl

theorem traceValue (level budget : Nat) (n : Node) (value : Value) :
    P (traceValue level budget n value) := by
  unfold Action.traceValue
  split
  · exact closed.bind (closed.shown budget n) fun _ =>
      closed.bind (closed.record level _) fun _ => closed.pure value
  · exact closed.pure value

theorem traceStatement (level budget : Nat) (n : Node) : P (traceStatement level budget n) := by
  unfold Action.traceStatement
  split
  · exact closed.bind (closed.shown budget n) fun _ => closed.record level _
  · exact closed.pure ()

theorem reassign (level : Nat) {name : Token} (allowed : own .change name.lexeme) (value : Value) :
    P (reassign level name value) :=
  closed.bind (closed.assign allowed value) fun _ =>
    closed.bind (closed.record level _) fun _ => closed.pure value

theorem unary (operator : Token) (value : Value) : P (unary operator value) := by
  unfold Action.unary
  split
  · split
    · exact closed.pure _
    · exact closed.fail rfl
  · exact closed.pure _
  · exact closed.fail rfl

theorem binary (budget : Nat) (whole : Node) (operator : Token) (left right : Value) :
    P (binary budget whole operator left right) := by
  unfold Action.binary
  split
  · exact closed.fail rfl
  split
  next applies => exact closed.liftM (TokenKind.onValues_bound applies)
  · exact closed.bind (closed.shown budget whole) fun _ => closed.fail rfl

theorem evaluate_of_result {n : Node} {level : Nat} (h : ∀ b, P (n.result level b))
    (budget : Nat) : P (n.evaluate level budget) := by
  rw [Node.evaluate_eq]
  split
  · exact closed.throw rfl
  · exact closed.bind (h budget) fun value => closed.traceValue level (budget - 1) n value

theorem execute_of_effect {n : Node} {level : Nat} (h : ∀ b, P (n.effect level b))
    (budget : Nat) : P (n.execute level budget) := by
  rw [Node.execute_eq]
  split
  · exact closed.throw rfl
  · exact closed.bind (closed.traceStatement level (budget - 1) n) fun _ => h budget

/-- The property holds of the evaluation of any tree whose names are used as they may be. -/
theorem evaluate (level : Nat) : ∀ (n : Node) (_ : Allowed own n.occurrences) (budget : Nat),
    P (n.evaluate level budget)
  | .literal t, _, budget => by
    apply closed.evaluate_of_result
    intro _
    exact closed.liftM t.value_bound
  | .reference name, allowed, budget => by
    apply closed.evaluate_of_result
    intro _
    exact closed.lookup (allowed ⟨.read, name⟩ (by simp [Node.occurrences]))
  | .grouping inner, allowed, budget => by
    apply closed.evaluate_of_result
    intro b
    exact evaluate level inner allowed (b - 2)
  | .assign name value, allowed, budget => by
    apply closed.evaluate_of_result
    intro b
    have target := allowed.right ⟨.change, name⟩ (by simp)
    exact closed.bind (evaluate level value allowed.left (b - 2)) (closed.reassign level target)
  | .unary operator operand, allowed, budget => by
    apply closed.evaluate_of_result
    intro b
    exact closed.bind (evaluate level operand allowed (b - 3)) (closed.unary operator)
  | .binary left operator right, allowed, budget => by
    apply closed.evaluate_of_result
    intro b
    exact closed.bind (evaluate level left allowed.left (b - 3)) fun x =>
      closed.bind (evaluate level right allowed.right (b - 3)) fun y =>
        closed.binary (b - 3) _ operator x y
  | .missing, _, budget | .token _, _, budget | .declare _ _, _, budget | .print _, _, budget
  | .expression _, _, budget | .block _, _, budget => by
    apply closed.evaluate_of_result
    intro _
    exact closed.fail rfl

theorem initialValue (level : Nat) {n : Node} (allowed : Allowed own n.occurrences) (budget : Nat) :
    P (n.initialValue level budget) := by
  by_cases given : n = .missing
  · subst given
    exact closed.pure _
  · rw [Node.initialValue_of_ne_missing given]
    exact closed.evaluate level n allowed budget

end ClosedOnValues

/-- The property is passed on by all of which the effect of a statement is made. -/
structure ClosedOnStatements (own : Role → String → Prop) (P : ∀ {α : Type}, Action α → Prop) :
    Prop extends ClosedOnValues own P where
  print (line : String) : P (print line)
  define {name : String} (allowed : own .declare name) (value : Value) : P (define name value)
  block {body : Action Unit} (h : P body) (level : Nat) : P (block level body)

namespace ClosedOnStatements

variable {own : Role → String → Prop} {P : ∀ {α : Type}, Action α → Prop}

theorem declare (closed : ClosedOnStatements own P) (level : Nat) {name : Token}
    (allowed : own .declare name.lexeme) (value : Value) : P (declare level name value) :=
  closed.bind (closed.define allowed value) fun _ => closed.record level _

mutual

/-- The property holds of the execution of any tree whose names are used as they may be. -/
theorem execute (closed : ClosedOnStatements own P) (level : Nat) :
    ∀ (n : Node) (_ : Allowed own n.occurrences) (budget : Nat), P (n.execute level budget)
  | .expression value, allowed, budget => by
    apply closed.execute_of_effect
    intro b
    exact closed.discard (closed.evaluate level value allowed (b - 1))
  | .print value, allowed, budget => by
    apply closed.execute_of_effect
    intro b
    exact closed.bind (closed.evaluate level value allowed (b - 1)) fun v => closed.print v.display
  | .declare name initial, allowed, budget => by
    apply closed.execute_of_effect
    intro b
    have declared := allowed.right ⟨.declare, name⟩ (by simp)
    exact closed.bind (closed.initialValue level allowed.left (b - 1))
      (closed.declare level declared)
  | .block statements, allowed, budget => by
    apply closed.execute_of_effect
    intro b
    exact closed.block (executeAll closed level statements allowed (b - 1)) level
  | .missing, _, budget | .token _, _, budget | .literal _, _, budget | .reference _, _, budget
  | .grouping _, _, budget | .assign _ _, _, budget | .unary _ _, _, budget
  | .binary _ _ _, _, budget => by
    apply closed.execute_of_effect
    intro _
    exact closed.fail rfl

theorem executeAll (closed : ClosedOnStatements own P) (level : Nat) :
    ∀ (ns : List Node) (_ : Allowed own (Node.occurrences.occurrencesAll ns)) (budget : Nat),
      P (Node.executeAll level ns budget)
  | [], _, budget => by
    rw [Node.executeAll_nil]
    exact closed.pure ()
  | n :: ns, allowed, budget => by
    rw [Node.executeAll_cons]
    exact closed.bind (execute closed level n allowed.left budget) fun _ =>
      executeAll closed level ns allowed.right budget

end

/-- The property holds of whole runs. -/
theorem interpret (closed : ClosedOnStatements own P) (level : Nat) (ns : List Node)
    (allowed : Allowed own (Node.occurrences.occurrencesAll ns))
    (thrown : ∀ f, P (throw f : Action Unit))
    (caught : ∀ {a : Action Unit} {handle : Fault → Action Unit}, P a → (∀ f, P (handle f)) →
      P (tryCatch a handle)) : P (interpret level ns) := by
  refine caught (closed.executeAll level ns allowed nestingLimit) ?_
  intro f
  cases f <;> exact thrown _

end ClosedOnStatements

end Action

end Scriptlet
