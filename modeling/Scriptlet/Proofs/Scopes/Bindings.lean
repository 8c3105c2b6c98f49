import Scriptlet.Scopes

/-! One name in a stack of scopes: what each scope binds it to. Every operation on the scopes is an
operation on these cells, and one on another name leaves them alone. -/
namespace Scriptlet.Scopes

/-- What each scope binds a name to, from the innermost outwards. -/
def bindings (s : Scopes) (name : String) : List (Option Value) := s.toList.map (·.lookup name)

/-- Changes the first value there is. -/
def overwrite (value : Value) : List (Option Value) → Option (List (Option Value))
  | [] => none
  | some _ :: cells => some (some value :: cells)
  | none :: cells => (overwrite value cells).map (none :: ·)

variable {s s' t : Scopes} {scopes scopes' : List Scope} {name other : String}

/-- A name means its innermost binding. -/
theorem get?_eq_findSome? (s : Scopes) (name : String) :
    s.get? name = (s.bindings name).findSome? id := by
  rw [bindings, List.findSome?_map]
  rfl

theorem bindings_define_self (s : Scopes) (name : String) (value : Value) :
    (s.define name value).bindings name = some value :: (s.bindings name).tail :=
  congrArg (· :: _) (Assoc.lookup_insert_self s.innermost name value)

theorem bindings_define_of_ne (ne : other ≠ name) (s : Scopes) (value : Value) :
    (s.define name value).bindings other = s.bindings other :=
  congrArg (· :: _) (Assoc.lookup_insert_of_ne s.innermost value ne)

theorem lookup_assignIn (name : String) (value : Value) (scopes : List Scope) :
    (assignIn name value scopes).map (·.map (·.lookup name)) =
      overwrite value (scopes.map (·.lookup name)) := by
  induction scopes with
  | nil => rfl
  | cons scope scopes ih =>
    unfold assignIn
    cases found : scope.lookup name with
    | some old => simp [overwrite, found, Assoc.lookup_insert_self]
    | none =>
      rw [if_neg (by simp), List.map_cons, found, overwrite, ← ih, Option.map_map, Option.map_map]
      exact congrArg (Option.map · _) (funext fun _ => congrArg (· :: _) found)

theorem lookup_assignIn_of_ne (ne : other ≠ name)
    (assigned : assignIn name value scopes = some scopes') :
    scopes'.map (·.lookup other) = scopes.map (·.lookup other) := by
  induction scopes generalizing scopes' with
  | nil => cases assigned
  | cons scope scopes ih =>
    unfold assignIn at assigned
    split at assigned
    · cases assigned
      exact congrArg (· :: _) (Assoc.lookup_insert_of_ne scope value ne)
    · obtain ⟨inner, found, rfl⟩ := Option.map_eq_some_iff.mp assigned
      exact congrArg (scope.lookup other :: ·) (ih found)

theorem toList_assign? (s : Scopes) (name : String) (value : Value) :
    (s.assign? name value).map toList = assignIn name value s.toList := by
  unfold assign?
  rw [toList, assignIn]
  split
  · rfl
  · rw [Option.map_map]
    rfl

/-- An assignment changes the binding that the name means. -/
theorem bindings_assign? (s : Scopes) (name : String) (value : Value) :
    (s.assign? name value).map (·.bindings name) = overwrite value (s.bindings name) := by
  rw [bindings, ← lookup_assignIn, ← toList_assign?, Option.map_map]
  rfl

theorem isSome_overwrite (value : Value) (cells : List (Option Value)) :
    (overwrite value cells).isSome = (cells.findSome? id).isSome := by
  induction cells with
  | nil => rfl
  | cons cell cells ih =>
    cases cell with
    | some old => rfl
    | none => simpa [overwrite] using ih

/-- The names that can be assigned to are those that have a value. -/
theorem isSome_assign? (s : Scopes) (name : String) (value : Value) :
    (s.assign? name value).isSome = (s.get? name).isSome := by
  rw [get?_eq_findSome?, ← isSome_overwrite value, ← bindings_assign?, Option.isSome_map]

theorem bindings_assign?_of_ne (ne : other ≠ name) (assigned : s.assign? name value = some s') :
    s'.bindings other = s.bindings other :=
  lookup_assignIn_of_ne ne (assignIn_toList assigned)

theorem bindings_push (s : Scopes) (name : String) : s.push.bindings name = none :: s.bindings name :=
  rfl

theorem bindings_pop? (popped : s.pop? = some (scope, t)) (name : String) :
    s.bindings name = scope.lookup name :: t.bindings name := by
  obtain ⟨innermost, outer⟩ := s
  cases outer with
  | nil => cases popped
  | cons => cases popped; rfl

theorem length_assignIn (assigned : assignIn name value scopes = some scopes') :
    scopes'.length = scopes.length := by
  induction scopes generalizing scopes' with
  | nil => cases assigned
  | cons scope scopes ih =>
    unfold assignIn at assigned
    split at assigned
    · cases assigned
      rfl
    · obtain ⟨inner, found, rfl⟩ := Option.map_eq_some_iff.mp assigned
      rw [List.length_cons, List.length_cons, ih found]

theorem depth_assign? (assigned : s.assign? name value = some s') : s'.depth = s.depth :=
  length_assignIn (assignIn_toList assigned)

theorem depth_pop? (popped : s.pop? = some (scope, t)) : s.depth = t.depth + 1 := by
  obtain ⟨innermost, outer⟩ := s
  cases outer with
  | nil => cases popped
  | cons => cases popped; rfl

/-- Once a scope was pushed there is one to drop. -/
theorem pop?_of_depth_push (left : s'.depth = s.push.depth) :
    ∃ scope t, s'.pop? = some (scope, t) ∧ t.depth = s.depth := by
  obtain ⟨innermost, outer⟩ := s'
  cases outer with
  | nil => simp [depth, push] at left
  | cons scope outer => exact ⟨_, _, rfl, Nat.succ.inj left⟩

end Scriptlet.Scopes
