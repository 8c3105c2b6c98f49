import Scriptlet.Proofs.Run.Closure

/-! What a machine has written has no bearing on what it does next: on a machine that has written
more before, a run ends alike and writes the same behind it. -/
namespace Scriptlet

/-- The machine, had it begun with something written already. -/
def Machine.behind (m : Machine) (output : String) (trace : List TraceEvent) : Machine :=
  { m with output := output ++ m.output, trace := trace ++ m.trace }

theorem Machine.scopes_behind (m : Machine) (output : String) (trace : List TraceEvent) :
    (m.behind output trace).scopes = m.scopes := rfl

namespace Action

/-- The action does not look at what was written. -/
def Blind (a : Action α) : Prop :=
  ∀ m output trace, a.exec (m.behind output trace) = ((a.exec m).1, (a.exec m).2.behind output trace)

namespace Blind

theorem pure (x : α) : Blind (pure x : Action α) := fun _ _ _ => rfl

theorem throw (f : Fault) : Blind (throw f : Action α) := fun _ _ _ => rfl

theorem bind {a : Action α} {f : α → Action β} (first : Blind a) (next : ∀ x, Blind (f x)) :
    Blind (a >>= f) := by
  intro m output trace
  rw [exec_bind, exec_bind, first]
  rcases a.exec m with ⟨e | x, m'⟩
  · rfl
  · exact next x m' output trace

theorem tryCatch {a : Action α} {handle : Fault → Action α} (first : Blind a)
    (next : ∀ f, Blind (handle f)) : Blind (tryCatch a handle) := by
  intro m output trace
  rw [exec_tryCatch, exec_tryCatch, first]
  rcases a.exec m with ⟨e | x, m'⟩
  · exact next e m' output trace
  · rfl

/-- What the action does on some machine it does on one that has written nothing. -/
theorem exec_eq {a : Action α} (blind : Blind a) (m : Machine) : a.exec m =
    ((a.exec (.start m.scopes)).1, (a.exec (.start m.scopes)).2.behind m.output m.trace) := by
  have resumed : m = (Machine.start m.scopes).behind m.output m.trace := by
    simp only [Machine.behind, Machine.start, String.append_empty, List.append_nil]
  calc
    a.exec m = a.exec ((Machine.start m.scopes).behind m.output m.trace) := congrArg _ resumed
    _ = _ := blind (.start m.scopes) m.output m.trace

end Blind

theorem lookup_blind (name : String) : Blind (lookup name) := by
  intro m output trace
  rw [exec_lookup, exec_lookup, Machine.scopes_behind]
  cases m.scopes.get? name <;> rfl

theorem define_blind (name : String) (value : Value) : Blind (define name value) := fun _ _ _ => rfl

theorem assign_blind (name : String) (value : Value) : Blind (assign name value) := by
  intro m output trace
  rw [exec_assign, exec_assign, Machine.scopes_behind]
  cases m.scopes.assign? name value <;> rfl

theorem print_blind (line : String) : Blind (print line) := by
  intro m output trace
  rw [exec_print, exec_print]
  simp only [Machine.behind, String.append_assoc]

theorem record_blind (level : Nat) (event : TraceEvent) : Blind (record level event) := by
  intro m output trace
  rw [exec_record, exec_record]
  split
  · simp only [Machine.behind, List.append_assoc]
  · rfl

theorem depth_blind : Blind depth := fun _ _ _ => rfl

theorem within_blind {body : Action α} (blind : Blind body) : Blind (within body) := by
  intro m output trace
  have pushed : { m.behind output trace with scopes := (m.behind output trace).scopes.push } =
      Machine.behind { m with scopes := m.scopes.push } output trace := rfl
  rw [exec_within, exec_within, pushed, blind, Machine.scopes_behind]
  cases (body.exec { m with scopes := m.scopes.push }).2.scopes.pop? <;> rfl

theorem block_blind {body : Action Unit} (blind : Blind body) (level : Nat) :
    Blind (block level body) := by
  have inner := depth_blind.bind fun d => (record_blind level (.pushed d)).bind fun _ => blind
  exact (within_blind inner).bind fun _ =>
    depth_blind.bind fun d => record_blind level (.popped (d + 1))

/-- No tree looks at what was written. -/
theorem blind_closed : ClosedOnStatements anyName (fun {_} a => Blind a) where
  pure := .pure
  throw _ := .throw _
  bind := .bind
  lookup _ := lookup_blind _
  assign _ := assign_blind _
  record := record_blind
  print := print_blind
  define _ := define_blind _
  block := block_blind

end Action

theorem interpret_blind (level : Nat) (ns : List Node) : Action.Blind (interpret level ns) :=
  Action.blind_closed.interpret level ns (Action.allowed_anyName _) .throw .tryCatch

/-- Running two lists of statements one after the other. -/
theorem exec_executeAll_append (level : Nat) (ms ns : List Node) (budget : Nat) (m : Machine) :
    (Node.executeAll level (ms ++ ns) budget).exec m =
      match (Node.executeAll level ms budget).exec m with
      | (.ok (), m) => (Node.executeAll level ns budget).exec m
      | (.error f, m) => (.error f, m) := by
  induction ms generalizing m with
  | nil => rfl
  | cons n ms ih =>
    rw [List.cons_append, Node.executeAll_cons, Node.executeAll_cons, Action.exec_bind,
      Action.exec_bind]
    rcases (n.execute level budget).exec m with ⟨f | ⟨⟩, m'⟩
    · rfl
    · exact ih m'

theorem exec_interpret_eq_ok {level : Nat} {ns : List Node} {m m' : Machine} :
    (interpret level ns).exec m = (.ok (), m') ↔
      (Node.executeAll level ns nestingLimit).exec m = (.ok (), m') := by
  rw [exec_interpret]
  rcases (Node.executeAll level ns nestingLimit).exec m with ⟨f | ⟨⟩, n⟩
  · cases f <;> exact ⟨nofun, nofun⟩
  · exact Iff.rfl

/-- If the first of two lists runs to its end, the second runs as it does by itself on the bindings
the first one leaves. -/
theorem interpret_append {level : Nat} {ms : List Node} {m : Machine} {scopes : Scopes}
    (ends : (interpret level ms).exec (.start scopes) = (.ok (), m)) (ns : List Node) :
    (interpret level (ms ++ ns)).exec (.start scopes) =
      (((interpret level ns).exec (.start m.scopes)).1,
        ((interpret level ns).exec (.start m.scopes)).2.behind m.output m.trace) := by
  rw [exec_interpret, exec_executeAll_append, exec_interpret_eq_ok.mp ends]
  exact (exec_interpret level ns m).symm.trans ((interpret_blind level ns).exec_eq m)

end Scriptlet
