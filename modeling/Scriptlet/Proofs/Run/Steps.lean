import Scriptlet.Proofs.Run.Action

/-! One step of running a tree, apart from what every step does: the guard on nesting and the
trace. A declaration without an initial value is the only place where a tree may be missing. -/
namespace Scriptlet

namespace Node

/-- The value of a tree before it is traced. -/
def result (level : Nat) (n : Node) (budget : Nat) : Action Value :=
  match n with
  | literal t => liftM t.value
  | grouping inner => inner.evaluate level (budget - 2)
  | reference name => Action.lookup name.lexeme
  | assign name value => value.evaluate level (budget - 2) >>= Action.reassign level name
  | unary operator operand => operand.evaluate level (budget - 3) >>= Action.unary operator
  | binary left operator right => do
    let x ← left.evaluate level (budget - 3)
    let y ← right.evaluate level (budget - 3)
    Action.binary (budget - 3) n operator x y
  | n => Action.fail (.unknownExpression n.sort)

/-- What a statement does once it is traced. -/
def effect (level : Nat) (n : Node) (budget : Nat) : Action Unit :=
  match n with
  | expression value => discard (value.evaluate level (budget - 1))
  | print value => value.evaluate level (budget - 1) >>= fun v => Action.print v.display
  | declare name initial =>
    initial.initialValue level (budget - 1) >>= Action.declare level name
  | block statements => Action.block level (executeAll level statements (budget - 1))
  | n => Action.fail (.unknownStatement n.sort)

theorem evaluate_eq (level : Nat) (n : Node) (budget : Nat) : n.evaluate level budget =
    if budget = 0 then throw .tooDeep
    else n.result level budget >>= Action.traceValue level (budget - 1) n := by
  rw [evaluate.eq_def]
  cases n <;> rfl

theorem execute_eq (level : Nat) (n : Node) (budget : Nat) : n.execute level budget =
    if budget = 0 then throw .tooDeep
    else Action.traceStatement level (budget - 1) n >>= fun _ => n.effect level budget := by
  rw [execute.eq_def]
  cases n <;> rfl

theorem executeAll_nil (level budget : Nat) : executeAll level [] budget = return () := by
  rw [executeAll]

theorem executeAll_cons (level : Nat) (n : Node) (ns : List Node) (budget : Nat) :
    executeAll level (n :: ns) budget =
      n.execute level budget >>= fun _ => executeAll level ns budget := by
  rw [executeAll]

theorem initialValue_of_ne_missing {n : Node} (given : n ≠ .missing) (level budget : Nat) :
    n.initialValue level budget = n.evaluate level budget := by
  cases n with
  | missing => exact absurd rfl given
  | _ => rfl

theorem render_declare {n : Node} (given : n ≠ .missing) (name : Token) (budget : Nat) :
    (declare name n).render (budget + 1) =
      (n.render budget >>= fun text => return "(var " ++ name.lexeme ++ " " ++ text ++ ")") := by
  rw [render.eq_def]
  cases n with
  | missing => exact absurd rfl given
  | _ => rfl

end Node

/-- Where nesting stops a run, it ends with the error for it. -/
theorem exec_interpret (level : Nat) (ns : List Node) (m : Machine) :
    (interpret level ns).exec m =
      match (Node.executeAll level ns nestingLimit).exec m with
      | (.error .tooDeep, m) => (.error (.error .tooDeep), m)
      | ended => ended := by
  rw [interpret, Action.exec_tryCatch]
  rcases (Node.executeAll level ns nestingLimit).exec m with ⟨f | ⟨⟩, m'⟩
  · cases f <;> rfl
  · rfl

theorem exec_interpret_snd (level : Nat) (ns : List Node) (m : Machine) :
    ((interpret level ns).exec m).2 = ((Node.executeAll level ns nestingLimit).exec m).2 := by
  rw [exec_interpret]
  rcases (Node.executeAll level ns nestingLimit).exec m with ⟨f | ⟨⟩, m'⟩
  · cases f <;> rfl
  · rfl

end Scriptlet
