import Mathlib.Data.List.Induction
import Scriptlet.Proofs.Scopes.Bindings
import Scriptlet.Proofs.Scopes.Calls

/-! A stack of scopes as a family of machines, one for each name. The machine of a name is a stack of
cells, each of which is filled or not, and sees only the calls that are about its name or about all
names. What scripts find in the scopes is what these machines answer, and so the value found for a
name is the last that was written to its innermost live binding. -/
namespace Scriptlet.Scopes

/-- What each open scope binds one name to, from the innermost outwards. -/
abbrev Cells := List (Option Value)

namespace Cells

/-- A call to the machine of a name. It answers with the value that was asked for. -/
def on (name : String) : Call Unit → Cells → Except RuntimeError (Option Value) × Cells
  | .define _ value, cells => (.ok none, some value :: cells.tail)
  | .assign _ value, cells =>
    match overwrite value cells with
    | some cells => (.ok none, cells)
    | none => (.error (.undefinedVariable name), cells)
  | .get _, cells =>
    match cells.findSome? id with
    | some value => (.ok (some value), cells)
    | none => (.error (.undefinedVariable name), cells)
  | .push, cells => (.ok none, none :: cells)
  | .pop, cells =>
    match cells with
    | _ :: cell :: cells => (.ok none, cell :: cells)
    | cells => (.error .globalScope, cells)

/-- The machine at the start of a script, when only the global scope is open. -/
def initial : Cells := [none]

end Cells

/-- What the machine of a name sees of a call. -/
def Call.about? (name : String) : Call String → Option (Call Unit)
  | .define other value => if other = name then some (.define () value) else none
  | .assign other value => if other = name then some (.assign () value) else none
  | .get other => if other = name then some (.get ()) else none
  | .push => some .push
  | .pop => some .pop

def Answer.value? : Answer β → Option Value
  | value v => some v
  | _ => none

/-- What the machine of a name sees of a call and its answer. -/
def Entry.about? (name : String) (e : Entry) :
    Option (Call Unit × Except RuntimeError (Option Value)) :=
  (e.1.about? name).map fun c => (c, e.2.map Answer.value?)

section Simulation

variable {name : String}

/-- The machine of a name answers as the scopes do, and goes on as what they bind it to. -/
theorem cells_on {c : Call String} (seen : c.about? name = some d) (s : Scopes) :
    Cells.on name d (s.bindings name) =
      ((c.on s).1.map Answer.value?, (c.on s).2.bindings name) := by
  cases c with
  | define other value =>
    obtain ⟨rfl, rfl⟩ : other = name ∧ .define () value = d := by simpa [Call.about?] using seen
    rw [on_define, bindings_define_self]
    rfl
  | assign other value =>
    obtain ⟨rfl, rfl⟩ : other = name ∧ .assign () value = d := by simpa [Call.about?] using seen
    rw [on_assign, Cells.on, ← bindings_assign?]
    cases s.assign? other value <;> rfl
  | get other =>
    obtain ⟨rfl, rfl⟩ : other = name ∧ .get () = d := by simpa [Call.about?] using seen
    rw [on_get, Cells.on, ← get?_eq_findSome?]
    cases s.get? other <;> rfl
  | push =>
    cases seen
    rfl
  | pop =>
    cases seen
    obtain ⟨innermost, outer⟩ := s
    cases outer <;> rfl

/-- A call about another name has no part in what the scopes bind a name to. -/
theorem bindings_on {c : Call String} (unseen : c.about? name = none) (s : Scopes) :
    (c.on s).2.bindings name = s.bindings name := by
  cases c with
  | define other value =>
    have ne : name ≠ other := by
      rintro rfl
      simp [Call.about?] at unseen
    exact bindings_define_of_ne ne s value
  | assign other value =>
    have ne : name ≠ other := by
      rintro rfl
      simp [Call.about?] at unseen
    rw [on_assign]
    cases assigned : s.assign? other value with
    | none => rfl
    | some s' => exact bindings_assign?_of_ne ne assigned
  | get other => rw [on_get_snd]
  | push => cases unseen
  | pop => cases unseen

/-- The scopes bind each name to what its machine comes to. -/
theorem bindings_reached (calls : List (Call String)) (s : Scopes) :
    (reached Call.on calls s).bindings name =
      reached (Cells.on name) (calls.filterMap (·.about? name)) (s.bindings name) := by
  induction calls generalizing s with
  | nil => rfl
  | cons c calls ih =>
    rw [reached_cons, ih, List.filterMap_cons]
    cases seen : c.about? name with
    | none => rw [bindings_on seen]
    | some d => rw [reached_cons, cells_on seen]

theorem transcript_about (calls : List (Call String)) (s : Scopes) :
    (transcript Call.on calls s).filterMap (Entry.about? name) =
      transcript (Cells.on name) (calls.filterMap (·.about? name)) (s.bindings name) := by
  induction calls generalizing s with
  | nil => rfl
  | cons c calls ih =>
    rw [transcript, List.filterMap_cons, List.filterMap_cons, Entry.about?, ih]
    cases seen : c.about? name with
    | none => rw [bindings_on seen, Option.map_none]
    | some d => rw [Option.map_some, transcript, cells_on seen]

end Simulation

namespace Cells

/-- The height of the innermost filled cell, which is the number of cells below it. -/
def innermost? : Cells → Option Nat
  | [] => none
  | some _ :: below => some below.length
  | none :: below => innermost? below

/-- What is in the cell at a height. -/
def at? : Cells → Nat → Option Value
  | [], _ => none
  | cell :: below, k => if k = below.length then cell else at? below k

variable {cells : Cells} {k : Nat}

theorem at?_below (other : k ≠ cells.length) (cell : Option Value) :
    at? (cell :: cells) k = at? cells k := if_neg other

theorem at?_lt (found : at? cells k = some v) : k < cells.length := by
  induction cells with
  | nil => cases found
  | cons cell below ih =>
    rw [List.length_cons]
    by_cases top : k = below.length
    · omega
    · rw [at?_below top] at found
      exact Nat.lt_succ_of_lt (ih found)

theorem innermost?_lt (filled : innermost? cells = some k) : k < cells.length := by
  induction cells with
  | nil => cases filled
  | cons cell below ih =>
    cases cell with
    | some v =>
      cases filled
      exact Nat.lt_succ_self below.length
    | none => exact Nat.lt_succ_of_lt (ih filled)

/-- A name means what is in the innermost filled cell of its machine. -/
theorem findSome?_eq (cells : Cells) : cells.findSome? id = (innermost? cells).bind (at? cells) := by
  induction cells with
  | nil => rfl
  | cons cell below ih =>
    cases cell with
    | some v => simp [innermost?, at?]
    | none =>
      rw [List.findSome?_cons_of_isNone rfl, ih, innermost?]
      cases filled : innermost? below with
      | none => rfl
      | some k => exact (at?_below (Nat.ne_of_lt (innermost?_lt filled)) none).symm

theorem innermost?_overwrite (assigned : overwrite value cells = some cells') :
    innermost? cells' = innermost? cells ∧ cells'.length = cells.length := by
  induction cells generalizing cells' with
  | nil => cases assigned
  | cons cell below ih =>
    cases cell with
    | some old =>
      cases assigned
      exact ⟨rfl, rfl⟩
    | none =>
      obtain ⟨inner, found, rfl⟩ := Option.map_eq_some_iff.mp assigned
      obtain ⟨same, length⟩ := ih found
      exact ⟨same, congrArg (· + 1) length⟩

theorem at?_overwrite (assigned : overwrite value cells = some cells') (k : Nat) :
    at? cells' k = if innermost? cells = some k then some value else at? cells k := by
  induction cells generalizing cells' with
  | nil => cases assigned
  | cons cell below ih =>
    cases cell with
    | some old =>
      cases assigned
      by_cases top : k = below.length
      · simp [at?, innermost?, top]
      · simp [at?, innermost?, top, Ne.symm top]
    | none =>
      obtain ⟨inner, found, rfl⟩ := Option.map_eq_some_iff.mp assigned
      have length := (innermost?_overwrite found).2
      by_cases top : k = below.length
      · subst top
        have empty : innermost? below ≠ some below.length := fun filled =>
          Nat.lt_irrefl _ (innermost?_lt filled)
        simp [at?, innermost?, length, empty]
      · rw [at?_below (length ▸ top), at?_below top, ih found, innermost?]

theorem innermost?_eq_none (failed : overwrite value cells = none) : innermost? cells = none := by
  induction cells with
  | nil => rfl
  | cons cell below ih =>
    cases cell with
    | some old => cases failed
    | none => exact ih (Option.map_eq_none_iff.mp failed)

end Cells

/-- The value that a call is to write. -/
def Call.written? : Call ν → Option Value
  | define _ value | assign _ value => some value
  | get _ | push | pop => none

namespace Cells

variable (name : String)

/-- The height of the cell that a call writes to, if it writes to any. -/
def target? (c : Call Unit) (cells : Cells) : Option Nat :=
  if c.written?.isSome then innermost? (on name c cells).2 else none

/-- A cell has a value behind a call if the call wrote it there, or if it had the value before, is
still there and was not written to. -/
theorem at?_on (c : Call Unit) (cells : Cells) (k : Nat) (v : Value) :
    at? (on name c cells).2 k = some v ↔
      c.written? = some v ∧ target? name c cells = some k ∨
        at? cells k = some v ∧ k < (on name c cells).2.length ∧ target? name c cells ≠ some k := by
  have there : at? cells k = some v → k < cells.length := at?_lt
  cases c with
  | define _ value =>
    simp only [on, target?, Call.written?, innermost?, Option.isSome_some, if_true]
    by_cases top : k = cells.tail.length
    · simp [at?, top]
    · have below : at? cells k = at? cells.tail k := by
        cases cells with
        | nil => rfl
        | cons cell below => exact at?_below top cell
      have there : at? cells.tail k = some v → k < cells.tail.length := at?_lt
      rw [at?_below top, below, List.length_cons]
      grind
  | assign _ value =>
    simp only [on, target?, Call.written?, Option.isSome_some, if_true]
    cases assigned : overwrite value cells with
    | none => simpa [innermost?_eq_none assigned] using there
    | some cells' =>
      obtain ⟨same, length⟩ := innermost?_overwrite assigned
      simp only [at?_overwrite assigned, same, length]
      grind
  | get _ =>
    have same : (on name (.get ()) cells).2 = cells := by
      simp only [on]
      cases cells.findSome? id <;> rfl
    simpa [same, target?, Call.written?] using there
  | push =>
    have next : at? (none :: cells) k = some v ↔ at? cells k = some v := by
      by_cases top : k = cells.length
      · simpa [at?, top] using fun found => Nat.lt_irrefl _ (at?_lt found)
      · rw [at?_below top]
    simp only [on, target?, Call.written?, List.length_cons, next]
    grind
  | pop =>
    simp only [on, target?, Call.written?]
    split
    next cell cell' below =>
      have there : at? (cell' :: below) k = some v → k < (cell' :: below).length := at?_lt
      have lower (other : k ≠ (cell' :: below).length) := at?_below other cell
      grind
    · simpa using there

/-- The value is the last that calls wrote to the cell at a height; the cell has been there ever since. -/
def LastWritten (calls : List (Call Unit)) (k : Nat) (v : Value) : Prop :=
  ∃ before c later, calls = before ++ c :: later ∧ c.written? = some v ∧
    target? name c (reached (on name) before initial) = some k ∧
    ∀ part d rest, later = part ++ d :: rest →
      k < (reached (on name) (before ++ c :: (part ++ [d])) initial).length ∧
        target? name d (reached (on name) (before ++ c :: part) initial) ≠ some k

theorem not_lastWritten_nil : ¬ LastWritten name [] k v := by
  rintro ⟨before, c, later, whole, _⟩
  simp at whole

theorem lastWritten_concat {calls : List (Call Unit)} {d : Call Unit} :
    LastWritten name (calls ++ [d]) k v ↔
      d.written? = some v ∧ target? name d (reached (on name) calls initial) = some k ∨
        LastWritten name calls k v ∧
          k < (reached (on name) (calls ++ [d]) initial).length ∧
          target? name d (reached (on name) calls initial) ≠ some k := by
  constructor
  · rintro ⟨before, c, later, whole, written, target, since⟩
    rcases List.eq_nil_or_concat later with rfl | ⟨later, last, rfl⟩
    · obtain ⟨rfl, same⟩ := List.append_inj' whole rfl
      cases same
      exact .inl ⟨written, target⟩
    · rw [List.concat_eq_append, ← List.cons_append, ← List.append_assoc] at whole
      obtain ⟨rfl, same⟩ := List.append_inj' whole rfl
      cases same
      obtain ⟨there, untouched⟩ := since later d [] (List.concat_eq_append ..)
      refine .inr ⟨⟨before, c, later, rfl, written, target, ?_⟩, by simpa using there, untouched⟩
      rintro part e rest rfl
      exact since part e (rest ++ [d]) (by simp)
  · rintro (⟨written, target⟩ | ⟨⟨before, c, later, rfl, written, target, since⟩, there, untouched⟩)
    · refine ⟨calls, d, [], rfl, written, target, ?_⟩
      rintro part e rest whole
      simp at whole
    · refine ⟨before, c, later ++ [d], by simp, written, target, ?_⟩
      intro part e rest whole
      rcases List.eq_nil_or_concat rest with rfl | ⟨rest, last, rfl⟩
      · obtain ⟨rfl, same⟩ := List.append_inj' whole rfl
        cases same
        exact ⟨by simpa using there, untouched⟩
      · rw [List.concat_eq_append, ← List.cons_append, ← List.append_assoc] at whole
        exact since part e rest (List.append_inj' whole rfl).1

/-- What is in a cell is what was last written to it. -/
theorem at?_reached (calls : List (Call Unit)) (k : Nat) (v : Value) :
    at? (reached (on name) calls initial) k = some v ↔ LastWritten name calls k v := by
  induction calls using List.reverseRecOn with
  | nil =>
    refine iff_of_false ?_ (not_lastWritten_nil name)
    simp [reached, initial, at?]
  | append_singleton calls d ih =>
    rw [lastWritten_concat, ← ih, reached_append]
    exact at?_on name d _ k v

end Cells

theorem get_eq_ok_iff : ((Call.get name).on s).1 = .ok (.value v) ↔ s.get? name = some v := by
  rw [on_get]
  cases s.get? name <;> simp

/-- What is found for a name, from a fresh environment on, is the last value written to its innermost
live binding. -/
theorem get_reached (calls : List (Call String)) (name : String) (v : Value) :
    ((Call.get name).on (reached Call.on calls .initial)).1 = .ok (.value v) ↔
      ∃ k, (reached (Cells.on name) (calls.filterMap (·.about? name)) Cells.initial).innermost? =
          some k ∧ Cells.LastWritten name (calls.filterMap (·.about? name)) k v := by
  rw [get_eq_ok_iff, get?_eq_findSome?, bindings_reached, Cells.findSome?_eq, Option.bind_eq_some_iff]
  exact exists_congr fun k => and_congr_right fun _ => Cells.at?_reached name _ k v

/-- The scopes are a family of machines, one for each name. From a fresh environment, steps are run one
by one, also behind one that failed; what comes of them is told by the calls that they make. Of these
calls the machine of a name sees those about the name and all pushes and pops. Its answers are those
that the calls had, and its cells are what the scopes bind the name to in the end. Whenever the name is
looked up, what is found is the last value that was written to its innermost live binding. -/
theorem script_by_cells (b : Bystander α β ε) (steps : List (Step α)) (name : String) :
    (∃ logs, transcript Call.on (Step.callsEach b.worker steps .initial) .initial = logs.flatten ∧
      List.Forall₂ (Told b) logs
        ((Step.runEach b.worker steps .initial).1.map (·.map Answer.values))) ∧
    (transcript Call.on (Step.callsEach b.worker steps .initial) .initial).filterMap
        (Entry.about? name) =
      transcript (Cells.on name)
        ((Step.callsEach b.worker steps .initial).filterMap (·.about? name)) Cells.initial ∧
    (Step.runEach b.worker steps .initial).2.bindings name =
      reached (Cells.on name)
        ((Step.callsEach b.worker steps .initial).filterMap (·.about? name)) Cells.initial ∧
    ∀ before others, Step.callsEach b.worker steps .initial = before ++ .get name :: others → ∀ v,
      (((Call.get name).on (reached Call.on before .initial)).1 = .ok (.value v) ↔
        ∃ k, (reached (Cells.on name) (before.filterMap (·.about? name)) Cells.initial).innermost? =
            some k ∧ Cells.LastWritten name (before.filterMap (·.about? name)) k v) := by
  refine ⟨Step.told_callsEach b steps .initial, transcript_about _ _, ?_, ?_⟩
  · rw [← Step.reached_callsEach]
    exact bindings_reached _ _
  · intro before _ _ v
    exact get_reached before name v

end Scriptlet.Scopes
