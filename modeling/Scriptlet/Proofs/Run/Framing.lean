import Scriptlet.Proofs.Run.Names
import Scriptlet.Proofs.Scopes.Bindings

/-! What a tree leaves alone. In the scopes that were open before, a run changes the values of no names
but those that the tree assigns to, and in the innermost scope that of the name it declares. This is
so of any tree, be it ill-formed or not, and however its run ends. -/
namespace Scriptlet

open Scriptlet.Action (Law Lenient Obeys ClosedOnValues ClosedOnStatements Allowed)

namespace Scopes

/-- There are as many scopes as before. Names that may not be changed are bound as before, but for
those in the innermost scope that may be declared. -/
structure Bounded (changed declared : String → Prop) (s s' : Scopes) : Prop where
  depth : s'.depth = s.depth
  outer_values {name : String} (alone : ¬ changed name) :
    (s'.bindings name).tail = (s.bindings name).tail
  values {name : String} (alone : ¬ changed name) (undeclared : ¬ declared name) :
    s'.bindings name = s.bindings name

namespace Bounded

variable {changed declared : String → Prop} {s s' s'' : Scopes}

theorem refl (changed declared : String → Prop) (s : Scopes) : Bounded changed declared s s :=
  ⟨rfl, fun _ => rfl, fun _ _ => rfl⟩

theorem trans (first : Bounded changed declared s s') (second : Bounded changed declared s' s'') :
    Bounded changed declared s s'' where
  depth := second.depth.trans first.depth
  outer_values alone := (second.outer_values alone).trans (first.outer_values alone)
  values alone undeclared := (second.values alone undeclared).trans (first.values alone undeclared)

theorem of_assign? (allowed : changed name) (assigned : s.assign? name value = some s') :
    Bounded changed declared s s' := by
  have same : ∀ {other}, ¬ changed other → s'.bindings other = s.bindings other := by
    intro other alone
    have ne : other ≠ name := fun same => alone (same ▸ allowed)
    exact bindings_assign?_of_ne ne assigned
  exact ⟨depth_assign? assigned, fun alone => congrArg List.tail (same alone),
    fun alone _ => same alone⟩

theorem of_define (allowed : declared name) (s : Scopes) (value : Value) :
    Bounded changed declared s (s.define name value) where
  depth := rfl
  outer_values _ := rfl
  values {other} _ undeclared := by
    have ne : other ≠ name := fun same => undeclared (same ▸ allowed)
    exact bindings_define_of_ne ne s value

/-- What is declared in a scope of its own is gone with it. -/
theorem pop? (left : Bounded changed (fun _ => True) s.push s') :
    ∃ scope t, s'.pop? = some (scope, t) ∧ Bounded changed declared s t := by
  obtain ⟨scope, t, popped, depth⟩ := pop?_of_depth_push left.depth
  have same : ∀ {name}, ¬ changed name → t.bindings name = s.bindings name := by
    intro name alone
    have below := left.outer_values alone
    rw [bindings_pop? popped, bindings_push] at below
    exact below
  exact ⟨scope, t, popped, depth, fun alone => congrArg List.tail (same alone),
    fun alone _ => same alone⟩

end Bounded

end Scopes

/-- The scopes stay within bounds, and no fault breaks the law. -/
def bounded (changed declared : String → Prop) : Law where
  related m m' := m.scopes.Bounded changed declared m'.scopes
  refl m := .refl changed declared m.scopes
  trans := .trans
  fault _ := True

/-- Names are assigned to only if they may be changed. -/
def assigning (changed : String → Prop) (role : Role) (name : String) : Prop :=
  role = .change → changed name

section Bounded

variable {changed declared : String → Prop}

theorem aside_bounded {a : Action α} (aside : ∀ m, (a.exec m).2.scopes = m.scopes) :
    Obeys (bounded changed declared) a := by
  intro m
  exact ⟨(congrArg (m.scopes.Bounded changed declared) (aside m)).mpr (.refl _ _ _),
    fun _ _ => trivial⟩

theorem record_bounded (level : Nat) (event : TraceEvent) :
    Obeys (bounded changed declared) (Action.record level event) := by
  apply aside_bounded
  intro m
  rw [Action.exec_record]
  split <;> rfl

theorem lookup_bounded (name : String) : Obeys (bounded changed declared) (Action.lookup name) := by
  apply aside_bounded
  intro m
  rw [Action.exec_lookup]
  split <;> rfl

theorem assign_bounded (allowed : changed name) (value : Value) :
    Obeys (bounded changed declared) (Action.assign name value) := by
  intro m
  rw [Action.exec_assign]
  split
  next assigned => exact ⟨.of_assign? allowed assigned, fun _ _ => trivial⟩
  next => exact ⟨.refl _ _ m.scopes, fun _ _ => trivial⟩

theorem bounded_values :
    ClosedOnValues (assigning changed) (fun {_} a => Obeys (bounded changed declared) a) where
  pure := .pure
  throw _ := .throw trivial
  bind := .bind
  lookup _ := lookup_bounded _
  assign allowed := assign_bounded (allowed rfl)
  record := record_bounded

theorem define_bounded (allowed : declared name) (value : Value) :
    Obeys (bounded changed declared) (Action.define name value) := by
  intro m
  rw [Action.exec_define]
  exact ⟨.of_define allowed m.scopes value, fun _ _ => trivial⟩

theorem declare_bounded (level : Nat) (name : Token) (allowed : declared name.lexeme)
    (value : Value) : Obeys (bounded changed declared) (Action.declare level name value) :=
  (define_bounded allowed value).bind fun _ => record_bounded level _

theorem print_bounded (line : String) : Obeys (bounded changed declared) (Action.print line) :=
  aside_bounded fun _ => rfl

theorem depth_bounded : Obeys (bounded changed declared) Action.depth :=
  aside_bounded fun _ => rfl

theorem within_bounded {body : Action α} (kept : Obeys (bounded changed fun _ => True) body) :
    Obeys (bounded changed declared) (Action.within body) := by
  intro m
  obtain ⟨left, _⟩ := kept { m with scopes := m.scopes.push }
  obtain ⟨scope, t, popped, kept⟩ := left.pop?
  rw [Action.exec_within, popped]
  exact ⟨kept, fun _ _ => trivial⟩

/-- Whatever the body of a block declares, the block declares nothing. -/
theorem block_bounded {body : Action Unit} (kept : Obeys (bounded changed fun _ => True) body)
    (level : Nat) : Obeys (bounded changed declared) (Action.block level body) := by
  have inner := depth_bounded.bind fun d => (record_bounded level (.pushed d)).bind fun _ => kept
  exact (within_bounded inner).bind fun _ =>
    depth_bounded.bind fun d => record_bounded level (.popped (d + 1))

/-- A body may declare any name. -/
theorem bounded_statements :
    ClosedOnStatements (assigning changed) (fun {_} a => Obeys (bounded changed fun _ => True) a) where
  toClosedOnValues := bounded_values
  print := print_bounded
  define _ := define_bounded trivial
  block := block_bounded

end Bounded

namespace Node

/-- An assignment to the name stands somewhere in the tree. -/
def Assigns (n : Node) (name : String) : Prop :=
  ∃ o ∈ n.occurrences, o.role = .change ∧ o.name.lexeme = name

variable (level : Nat) (n : Node) (budget : Nat)

theorem allowed_assigns : Allowed (assigning n.Assigns) n.occurrences :=
  fun o mem changes => ⟨o, mem, changes, rfl⟩

/-- A declaration declares its name in its own scope, and no other statement declares anything. -/
theorem execute_bounded :
    Obeys (bounded n.Assigns (n.declared? = some ·)) (n.execute level budget) := by
  have allowed := n.allowed_assigns
  apply bounded_values.execute_of_effect
  intro b
  cases n with
  | expression value => exact (bounded_values.evaluate level value allowed (b - 1)).discard
  | print value =>
    exact (bounded_values.evaluate level value allowed (b - 1)).bind fun v => print_bounded v.display
  | declare name initial =>
    exact (bounded_values.initialValue level allowed.left (b - 1)).bind
      (declare_bounded level name rfl)
  | block statements =>
    exact block_bounded (bounded_statements.executeAll level statements allowed (b - 1)) level
  | _ => exact bounded_values.fail rfl

end Node

/-- Nothing is printed. -/
def silent : Law where
  related m m' := m'.output = m.output
  refl _ := rfl
  trans first second := second.trans first
  fault _ := True

end Scriptlet
