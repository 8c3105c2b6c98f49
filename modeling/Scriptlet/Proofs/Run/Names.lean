import Scriptlet.Proofs.Run.Lenient

/-! Which names are bound when a tree was run. A name comes to be bound only by a declaration, in the
scope in which the declaration stands, and stays bound there. Whatever a block binds is gone with
its scope, however the block ends. -/
namespace Scriptlet

open Scriptlet.Action (Law Lenient Lax Obeys)

namespace Scopes

/-- The names that each scope binds, from the innermost outwards. -/
def names (s : Scopes) : List (List String) := s.toList.map Assoc.keys

theorem keys_assignIn {scopes scopes' : List Scope}
    (assigned : assignIn name value scopes = some scopes') :
    scopes'.map Assoc.keys = scopes.map Assoc.keys := by
  induction scopes generalizing scopes' with
  | nil => cases assigned
  | cons scope scopes ih =>
    unfold assignIn at assigned
    split at assigned
    next there =>
      cases assigned
      rw [List.map_cons, Assoc.keys_insert_of_mem (Assoc.isSome_lookup.mp there), List.map_cons]
    next =>
      obtain ⟨inner, found, rfl⟩ := Option.map_eq_some_iff.mp assigned
      rw [List.map_cons, List.map_cons, ih found]

variable {s s' : Scopes}

theorem names_assign? (assigned : s.assign? name value = some s') : s'.names = s.names :=
  keys_assignIn (assignIn_toList assigned)

/-- What is left below the innermost scope comes to the top when that is dropped. -/
theorem names_pop? (kept : s'.names.tail = s.push.names.tail) :
    ∃ scope t, s'.pop? = some (scope, t) ∧ t.names = s.names := by
  obtain ⟨innermost, outer⟩ := s'
  cases outer with
  | nil => cases kept
  | cons scope outer => exact ⟨_, _, rfl, kept⟩

end Scopes

/-- Every scope binds the names it did before. -/
def namesKept : Law where
  related m m' := m'.scopes.names = m.scopes.names
  refl _ := rfl
  trans first second := second.trans first
  fault _ := True

/-- Every scope but the innermost binds the names it did before. -/
def outerNamesKept : Law where
  related m m' := m'.scopes.names.tail = m.scopes.names.tail
  refl _ := rfl
  trans first second := second.trans first
  fault _ := True

theorem namesKept_lenient : Lenient namesKept where
  fault _ := trivial
  assigned := Scopes.names_assign?
  recorded _ _ := rfl

theorem within_namesKept {body : Action α} (kept : Obeys outerNamesKept body) :
    Obeys namesKept (Action.within body) := by
  intro m
  obtain ⟨left, _⟩ := kept { m with scopes := m.scopes.push }
  obtain ⟨scope, outer, popped, names⟩ := Scopes.names_pop? left
  rw [Action.exec_within, popped]
  exact ⟨names, fun _ _ => trivial⟩

theorem Action.Obeys.outerNamesKept {a : Action α} (kept : Obeys namesKept a) :
    Obeys outerNamesKept a := by
  intro m
  exact ⟨congrArg List.tail (kept m).1, fun _ _ => trivial⟩

theorem outerNamesKept_lenient : Lenient outerNamesKept where
  fault _ := trivial
  assigned assigned := congrArg List.tail (Scopes.names_assign? assigned)
  recorded _ _ := rfl

theorem block_namesKept {body : Action Unit} (kept : Obeys outerNamesKept body) (level : Nat) :
    Obeys namesKept (Action.block level body) :=
  namesKept_lenient.left (within_namesKept (outerNamesKept_lenient.entered kept level)) level

theorem outerNamesKept_lax : Lax outerNamesKept where
  toLenient := outerNamesKept_lenient
  printed _ _ := rfl
  defined _ _ _ := rfl
  block kept level := (block_namesKept kept level).outerNamesKept

namespace Node

/-- The name that a declaration declares. -/
def declared? : Node → Option String
  | declare name _ => some name.lexeme
  | _ => none

/-- A statement that declares nothing binds nothing, whatever stands in it. -/
theorem execute_namesKept {n : Node} (plain : n.declared? = none) (level budget : Nat) :
    Obeys namesKept (n.execute level budget) := by
  apply namesKept_lenient.closed.execute_of_effect
  intro b
  cases n with
  | declare name initial => cases plain
  | expression value => exact (namesKept_lenient.evaluate level value (b - 1)).discard
  | print value =>
    refine (namesKept_lenient.evaluate level value (b - 1)).bind fun v => ?_
    intro m
    exact ⟨rfl, fun _ _ => trivial⟩
  | block statements =>
    exact block_namesKept (outerNamesKept_lax.executeAll level statements (b - 1)) level
  | _ => exact namesKept_lenient.closed.fail rfl

theorem exec_declare (level : Nat) (name : Token) (value : Value) (m : Machine) :
    ∃ trace, (Action.declare level name value).exec m =
      (.ok (), { m with scopes := m.scopes.define name.lexeme value, trace }) := by
  rw [Action.declare, Action.exec_bind, Action.exec_define]
  simp only [Action.exec_record]
  split <;> exact ⟨_, rfl⟩

/-- A declaration binds its name if it gets to its end, and nothing else. -/
theorem names_declare (level : Nat) (token : Token) (initial : Node) (budget : Nat) (m : Machine)
    (name : String) :
    name ∈ Assoc.keys (((declare token initial).execute level budget).exec m).2.scopes.innermost ↔
      name ∈ Assoc.keys m.scopes.innermost ∨
        token.lexeme = name ∧ (((declare token initial).execute level budget).exec m).1 = .ok () := by
  rw [execute_eq]
  split
  · simp [Action.exec_throw]
  have prepared := (namesKept_lenient.closed.traceStatement level (budget - 1)
    (declare token initial)).bind fun _ => namesKept_lenient.initialValue level initial (budget - 1)
  obtain ⟨kept, _⟩ := prepared m
  -- The value is found before anything is bound.
  rw [effect, ← bind_assoc, Action.exec_bind]
  rcases prepares : Action.exec _ m with ⟨f | value, m'⟩ <;> rw [prepares] at kept <;>
    have same := (List.cons.inj kept).1
  · simp [same]
  · obtain ⟨trace, ran⟩ := exec_declare level token value m'
    simp only [ran]
    simp [Scopes.define, Assoc.mem_keys_insert, same, eq_comm]

/-- A statement is a declaration that binds the name, or it leaves the names in its scope alone. -/
theorem names_execute (level : Nat) (n : Node) (budget : Nat) (m : Machine) (name : String) :
    name ∈ Assoc.keys ((n.execute level budget).exec m).2.scopes.innermost ↔
      name ∈ Assoc.keys m.scopes.innermost ∨
        n.declared? = some name ∧ ((n.execute level budget).exec m).1 = .ok () := by
  cases declared : n.declared? with
  | none =>
    have kept := (execute_namesKept declared level budget m).1
    simp [(List.cons.inj kept).1]
  | some own =>
    cases n with
    | declare token initial =>
      cases declared
      simpa using names_declare level token initial budget m name
    | _ => cases declared

/-- A run of statements comes to a declaration of the name among them, and gets past it. -/
def Declares (level budget : Nat) (ns : List Node) (m : Machine) (name : String) : Prop :=
  ∃ before n others m', ns = before ++ n :: others ∧ n.declared? = some name ∧
    (executeAll level before budget).exec m = (.ok (), m') ∧
    ((n.execute level budget).exec m').1 = .ok ()

theorem not_declares_nil : ¬ Declares level budget [] m name := by
  rintro ⟨before, n, others, m', whole, _⟩
  simp at whole

theorem declares_cons : Declares level budget (n :: ns) m name ↔
    ((n.execute level budget).exec m).1 = .ok () ∧ (n.declared? = some name ∨
      Declares level budget ns ((n.execute level budget).exec m).2 name) := by
  constructor
  · rintro ⟨before, n', others, m', whole, declared, ran, ends⟩
    cases before with
    | nil =>
      cases whole
      rw [executeAll_nil] at ran
      cases ran
      exact ⟨ends, .inl declared⟩
    | cons first before =>
      cases whole
      rw [executeAll_cons] at ran
      obtain ⟨⟨⟩, m₁, step, ran⟩ := Action.exec_bind_ok ran
      rw [step]
      exact ⟨rfl, .inr ⟨before, n', others, m', rfl, declared, ran, ends⟩⟩
  · rintro ⟨ends, declared | ⟨before, n', others, m', rfl, declared, ran, past⟩⟩
    · exact ⟨[], n, ns, m, rfl, declared, by rw [executeAll_nil]; rfl, ends⟩
    · refine ⟨n :: before, n', others, m', rfl, declared, ?_, past⟩
      rw [executeAll_cons, Action.exec_bind]
      rcases step : (n.execute level budget).exec m with ⟨f | ⟨⟩, m₁⟩ <;> rw [step] at ends ran
      · cases ends
      · exact ran

/-- When statements were run, by themselves or up to a fault, their scope binds the names it did
before and those of the declarations that the run got past. -/
theorem names_executeAll (level : Nat) (ns : List Node) (budget : Nat) (m : Machine)
    (name : String) :
    name ∈ Assoc.keys ((executeAll level ns budget).exec m).2.scopes.innermost ↔
      name ∈ Assoc.keys m.scopes.innermost ∨ Declares level budget ns m name := by
  induction ns generalizing m with
  | nil =>
    rw [executeAll_nil]
    simp only [not_declares_nil, or_false]
    exact Iff.rfl
  | cons n ns ih =>
    have first := names_execute level n budget m name
    rw [executeAll_cons, Action.exec_bind, declares_cons]
    rcases step : (n.execute level budget).exec m with ⟨f | ⟨⟩, m₁⟩ <;> rw [step] at first
    · simpa using first
    · simp only [true_and, and_true] at first ⊢
      rw [ih m₁, first, or_assoc]

end Node

end Scriptlet
