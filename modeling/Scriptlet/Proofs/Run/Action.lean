import Scriptlet.Proofs.Outcome
import Scriptlet.Run.Execute

/-! Running actions: what each of them does to a machine, and laws that hold of every run. A law says
how the machine before a run is related to the machine after it, however the run ends, and which
faults may end it. -/
namespace Scriptlet.Action

/-- Runs an action on a machine. -/
def exec (a : Action α) (m : Machine) : Except Fault α × Machine := StateT.run (ExceptT.run a) m

section Equations

variable {m : Machine}

theorem exec_pure (x : α) : (pure x : Action α).exec m = (.ok x, m) := rfl

theorem exec_throw (f : Fault) : (throw f : Action α).exec m = (.error f, m) := rfl

theorem exec_bind (a : Action α) (f : α → Action β) : (a >>= f).exec m =
    match a.exec m with
    | (.ok x, m) => (f x).exec m
    | (.error e, m) => (.error e, m) := by
  change StateT.run (ExceptT.run a >>= ExceptT.bindCont f) m = _
  simp only [StateT.run_bind, exec]
  rcases StateT.run (ExceptT.run a) m with ⟨_ | _, _⟩ <;> rfl

theorem exec_bind_ok {a : Action α} {f : α → Action β} (ended : (a >>= f).exec m = (.ok y, o)) :
    ∃ x n, a.exec m = (.ok x, n) ∧ (f x).exec n = (.ok y, o) := by
  rw [exec_bind] at ended
  rcases run : a.exec m with ⟨e | x, n⟩ <;> rw [run] at ended
  · cases ended
  · exact ⟨x, n, rfl, ended⟩

theorem exec_liftM (x : Except Fault α) : (liftM x : Action α).exec m = (x, m) := by
  cases x <;> rfl

theorem exec_lookup : (lookup name).exec m =
    match m.scopes.get? name with
    | some value => (.ok value, m)
    | none => (.error (.error (.undefinedVariable name)), m) := by
  change (match m.scopes.get? name with
    | some value => (pure value : Action Value)
    | none => fail (.undefinedVariable name)).exec m = _
  split <;> rfl

theorem exec_define :
    (define name value).exec m = (.ok (), { m with scopes := m.scopes.define name value }) := rfl

theorem exec_assign : (assign name value).exec m =
    match m.scopes.assign? name value with
    | some scopes => (.ok (), { m with scopes })
    | none => (.error (.error (.undefinedVariable name)), m) := by
  change (match m.scopes.assign? name value with
    | some scopes => modify fun m => { m with scopes }
    | none => fail (.undefinedVariable name) : Action Unit).exec m = _
  split <;> rfl

theorem exec_print :
    (print line).exec m = (.ok (), { m with output := m.output ++ line ++ "\n" }) := rfl

theorem exec_record : (record level event).exec m =
    (.ok (), if event.level ≤ level then { m with trace := m.trace ++ [event] } else m) := by
  unfold record
  split <;> rfl

theorem exec_depth : depth.exec m = (.ok m.scopes.depth, m) := rfl

theorem exec_within (a : Action α) : (within a).exec m =
    match (a.exec { m with scopes := m.scopes.push }).2.scopes.pop? with
    | some (_, scopes) => ((a.exec { m with scopes := m.scopes.push }).1,
        { (a.exec { m with scopes := m.scopes.push }).2 with scopes })
    | none => (.error (.error .globalScope), (a.exec { m with scopes := m.scopes.push }).2) := rfl

theorem exec_tryCatch (a : Action α) (handle : Fault → Action α) : (tryCatch a handle).exec m =
    match a.exec m with
    | (.ok x, m) => (.ok x, m)
    | (.error e, m) => (handle e).exec m := by
  change StateT.run (ExceptT.tryCatch a handle) m = _
  simp only [ExceptT.tryCatch, ExceptT.mk, StateT.run_bind, exec, ExceptT.run]
  rcases StateT.run a m with ⟨_ | _, _⟩ <;> rfl

end Equations

theorem discard_eq (a : Action α) : discard a = a >>= fun _ => pure () :=
  map_eq_pure_bind (fun _ => PUnit.unit) a

/-- What all runs of some actions have in common. -/
structure Law where
  related : Machine → Machine → Prop
  refl (m : Machine) : related m m
  trans {m n o : Machine} : related m n → related n o → related m o
  fault : Fault → Prop

/-- Every run of the action keeps to the law. -/
def Obeys (law : Law) (a : Action α) : Prop :=
  ∀ m, law.related m (a.exec m).2 ∧ ∀ f, (a.exec m).1 = .error f → law.fault f

namespace Obeys

variable {law : Law}

theorem pure (x : α) : Obeys law (pure x) := by
  intro m
  rw [exec_pure]
  exact ⟨law.refl m, Outcome.FailsOnly.ok x⟩

theorem throw (allowed : law.fault f) : Obeys law (throw f : Action α) := by
  intro m
  rw [exec_throw]
  exact ⟨law.refl m, Outcome.FailsOnly.error allowed⟩

/-- What follows an action need keep to the law only for the results that the action may have. -/
theorem bind_of_ok {a : Action α} {f : α → Action β} (first : Obeys law a)
    (next : ∀ x m m', a.exec m = (.ok x, m') → Obeys law (f x)) : Obeys law (a >>= f) := by
  intro m
  obtain ⟨held, allowed⟩ := first m
  rw [exec_bind]
  rcases run : a.exec m with ⟨e | x, m'⟩ <;> rw [run] at held allowed
  · exact ⟨held, Outcome.FailsOnly.error (allowed e rfl)⟩
  · obtain ⟨later, others⟩ := next x m m' run m'
    exact ⟨law.trans held later, others⟩

theorem bind {a : Action α} {f : α → Action β} (first : Obeys law a)
    (next : ∀ x, Obeys law (f x)) : Obeys law (a >>= f) :=
  first.bind_of_ok fun x _ _ _ => next x

theorem liftM {x : Except Fault α} (allowed : ∀ f, x = .error f → law.fault f) :
    Obeys law (liftM x : Action α) := by
  intro m
  rw [exec_liftM]
  exact ⟨law.refl m, allowed⟩

theorem discard {a : Action α} (h : Obeys law a) : Obeys law (discard a) := by
  rw [discard_eq]
  exact h.bind fun _ => pure _

end Obeys

end Scriptlet.Action
