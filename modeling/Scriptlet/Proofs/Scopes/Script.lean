import Scriptlet.Proofs.Run.Names
import Scriptlet.Proofs.Scopes.Bindings
import Scriptlet.Proofs.Scopes.Calls

/-! What scripts of scope operations keep, however their pushes and pops are balanced and wherever
their bodies are left. It is checked on the calls of a script, at every moment between two of them. -/
namespace Scriptlet.Scopes

/-- The names that the global scope binds. -/
def globalNames (s : Scopes) : List String := s.names.getLastD []

def Call.opens : Call ν → Bool
  | push => true
  | _ => false

/-- A scope is dropped. -/
def Entry.closes (e : Entry) : Bool :=
  match e with
  | (.pop, .ok _) => true
  | _ => false

/-- How many scopes calls open, as pushes or to enter a body. -/
def opened (calls : List (Call String)) : Nat := calls.countP Call.opens

/-- How many scopes calls drop, as pops or to leave a body. -/
def closed (calls : List (Call String)) (s : Scopes) : Nat :=
  (transcript Call.on calls s).countP Entry.closes

/-- Why a call fails. -/
inductive Call.Fails (s : Scopes) : Call String → RuntimeError → Prop where
  | assign (unbound : s.get? name = none) : Fails s (.assign name value) (.undefinedVariable name)
  | get (unbound : s.get? name = none) : Fails s (.get name) (.undefinedVariable name)
  | pop (only : s.depth = 1) : Fails s .pop .globalScope

section Call

variable (c : Call String) (s : Scopes)

theorem opened_cons (calls : List (Call String)) : opened (c :: calls) = opened [c] + opened calls := by
  rw [opened, ← List.singleton_append, List.countP_append]
  rfl

theorem closed_cons (calls : List (Call String)) :
    closed (c :: calls) s = closed [c] s + closed calls (c.on s).2 := by
  rw [closed, transcript, ← List.singleton_append, List.countP_append]
  rfl

theorem depth_eq_length : s.depth = s.names.length := by
  simp [names, toList, depth]

/-- A call that fails leaves the scopes as they are. -/
theorem on_of_error (failed : (c.on s).1 = .error e) : (c.on s).2 = s ∧ c.Fails s e := by
  cases c with
  | assign name value =>
    rw [on_assign] at failed ⊢
    cases assigned : s.assign? name value with
    | none =>
      rw [assigned] at failed
      cases failed
      have unbound : s.get? name = none := by
        rw [← Option.not_isSome_iff_eq_none, ← isSome_assign? s name value, assigned]
        simp
      exact ⟨rfl, .assign unbound⟩
    | some t =>
      rw [assigned] at failed
      cases failed
  | get name =>
    rw [on_get] at failed ⊢
    cases found : s.get? name with
    | none =>
      rw [found] at failed
      cases failed
      exact ⟨rfl, .get found⟩
    | some v =>
      rw [found] at failed
      cases failed
  | pop =>
    obtain ⟨innermost, outer⟩ := s
    cases outer with
    | nil =>
      cases failed
      exact ⟨rfl, .pop rfl⟩
    | cons scope outer => cases failed
  | define | push => cases failed

theorem names_assign (name : String) (value : Value) :
    ((Call.assign name value).on s).2.names = s.names := by
  rw [on_assign]
  cases assigned : s.assign? name value with
  | none => rfl
  | some t => exact names_assign? assigned

theorem depth_on : (c.on s).2.depth + closed [c] s = s.depth + opened [c] := by
  cases c with
  | assign name value =>
    rw [depth_eq_length, names_assign, ← depth_eq_length]
    rfl
  | get name =>
    rw [on_get_snd]
    rfl
  | pop =>
    obtain ⟨innermost, outer⟩ := s
    cases outer <;> rfl
  | define | push => rfl

/-- A name of the global scope stays there. -/
theorem globalNames_on : s.globalNames ⊆ (c.on s).2.globalNames := by
  cases c with
  | define name value =>
    obtain ⟨innermost, outer⟩ := s
    cases outer with
    | nil => exact fun other bound => Assoc.mem_keys_insert.mpr (.inl bound)
    | cons scope outer => exact fun _ => id
  | assign name value =>
    rw [globalNames, globalNames, names_assign]
    exact fun _ => id
  | get name =>
    rw [on_get_snd]
    exact fun _ => id
  | push => exact fun _ => id
  | pop =>
    obtain ⟨innermost, outer⟩ := s
    cases outer <;> exact fun _ => id

/-- The scopes below the innermost keep their names. -/
theorem names_below (deep : n < s.depth) :
    (c.on s).2.names.drop ((c.on s).2.depth - n) = s.names.drop (s.depth - n) := by
  cases c with
  | define name value =>
    obtain ⟨k, above⟩ : ∃ k, s.depth - n = k + 1 := ⟨s.depth - n - 1, by omega⟩
    change (s.define name value).names.drop (s.depth - n) = _
    rw [above]
    rfl
  | assign name value => rw [depth_eq_length, depth_eq_length, names_assign]
  | get name => rw [on_get_snd]
  | push =>
    change s.push.names.drop (s.depth + 1 - n) = _
    rw [Nat.succ_sub (Nat.le_of_lt deep)]
    rfl
  | pop =>
    obtain ⟨innermost, outer⟩ := s
    cases outer with
    | nil => rfl
    | cons scope outer =>
      have above : (Scopes.mk innermost (scope :: outer)).depth - n =
          (Scopes.mk scope outer).depth - n + 1 := Nat.succ_sub (Nat.le_of_lt_succ deep)
      rw [above]
      rfl

end Call

section Calls

variable {calls : List (Call String)} {s : Scopes}

theorem depth_reached (calls : List (Call String)) (s : Scopes) :
    (reached Call.on calls s).depth + closed calls s = s.depth + opened calls := by
  induction calls generalizing s with
  | nil => rfl
  | cons c calls ih =>
    have here := depth_on c s
    have later := ih (c.on s).2
    rw [reached_cons, opened_cons, closed_cons]
    omega

theorem globalNames_reached (calls : List (Call String)) (s : Scopes) :
    s.globalNames ⊆ (reached Call.on calls s).globalNames := by
  induction calls generalizing s with
  | nil => exact fun _ => id
  | cons c calls ih => exact fun name bound => ih (c.on s).2 (globalNames_on c s bound)

/-- Calls that always leave more scopes open than the outermost few keep the names of those. -/
theorem names_reached (deep : ∀ before, before <+: calls → n < (reached Call.on before s).depth) :
    (reached Call.on calls s).names.drop ((reached Call.on calls s).depth - n) =
      s.names.drop (s.depth - n) := by
  induction calls generalizing s with
  | nil => rfl
  | cons c calls ih =>
    have here : n < s.depth := deep [] List.nil_prefix
    have later : ∀ before, before <+: calls → n < (reached Call.on before (c.on s).2).depth :=
      fun before inside => deep (c :: before) ((List.prefix_cons_inj c).mpr inside)
    rw [reached_cons, ih later, names_below c s here]

end Calls

namespace Step

variable (b : Bystander α β ε) (body : List (Step α)) (s : Scopes)

/-- A body that leaves its own scope to be dropped at its end, as the innermost, is as if it had never
been, but for the values that it changed. -/
theorem within_kept
    (own : ∀ before, before <+: callsAll b.worker body s.push →
      s.depth < (reached Call.on before s.push).depth)
    (level : (runAll b.worker body s.push).2.depth = s.depth + 1) :
    ((within body).run b.worker s).1 = (runAll b.worker body s.push).1.map .answers ∧
      ((within body).run b.worker s).2.depth = s.depth ∧
      ((within body).run b.worker s).2.names = s.names := by
  have kept := names_reached own
  rw [reached_callsAll, level, depth_push, Nat.add_sub_cancel_left] at kept
  simp only [List.drop_one] at kept
  obtain ⟨scope, t, popped, same⟩ := names_pop? kept
  rw [run_within, popped]
  exact ⟨rfl, by rw [depth_eq_length, same, ← depth_eq_length], same⟩

end Step

/-- From whatever scopes steps are run, one by one and also behind one that failed: what they do is what
their calls do. At every moment there is a scope, and as many as at the start and opened since, without
those dropped since; and what the global scope binds it binds at every later moment. A call that fails
leaves the scopes as they are, and it does so for want of a binding, or of a scope to drop. An
assignment leaves the names of every scope as they are. At the end of a body, which may be an error,
the innermost scope is dropped; if that is the global one it is not, and this is the error that
counts. A body that has its own scope all the time and in the end as the innermost leaves the scopes
as many as they were, and with their names. -/
theorem script_keeps (b : Bystander α β ε) (steps : List (Step α)) (s : Scopes) :
    reached Call.on (Step.callsEach b.worker steps s) s = (Step.runEach b.worker steps s).2 ∧
    (∀ before, before <+: Step.callsEach b.worker steps s →
      1 ≤ (reached Call.on before s).depth ∧
      (reached Call.on before s).depth + closed before s = s.depth + opened before ∧
      ∀ later, before ++ later <+: Step.callsEach b.worker steps s →
        (reached Call.on before s).globalNames ⊆ (reached Call.on (before ++ later) s).globalNames) ∧
    (∀ (c : Call String) t e, (c.on t).1 = .error e → (c.on t).2 = t ∧ c.Fails t e) ∧
    (∀ name value (t : Scopes), ((Call.assign name value).on t).2.names = t.names) ∧
    (∀ (body : List (Step α)) t,
      (∀ scope outer, (Step.runAll b.worker body t.push).2.outer = scope :: outer →
        (Step.within body).run b.worker t =
          ((Step.runAll b.worker body t.push).1.map .answers, ⟨scope, outer⟩)) ∧
      ((Step.runAll b.worker body t.push).2.outer = [] →
        (Step.within body).run b.worker t =
          (.error (b.failure .globalScope), (Step.runAll b.worker body t.push).2))) ∧
    ∀ (body : List (Step α)) t,
      (∀ before, before <+: Step.callsAll b.worker body t.push →
        t.depth < (reached Call.on before t.push).depth) →
      (Step.runAll b.worker body t.push).2.depth = t.depth + 1 →
      ((Step.within body).run b.worker t).1 = (Step.runAll b.worker body t.push).1.map .answers ∧
        ((Step.within body).run b.worker t).2.depth = t.depth ∧
        ((Step.within body).run b.worker t).2.names = t.names := by
  refine ⟨Step.reached_callsEach b steps s, ?moments, fun c t _ failed => on_of_error c t failed,
    fun name value t => names_assign t name value, ?left, fun body t => Step.within_kept b body t⟩
  case moments =>
    intro before _
    refine ⟨Nat.succ_le_succ (Nat.zero_le _), depth_reached before s, fun later _ => ?_⟩
    rw [reached_append]
    exact globalNames_reached later _
  case left =>
    intro body t
    rw [Step.run_within]
    rcases (Step.runAll b.worker body t.push).2 with ⟨innermost, outer⟩
    constructor
    · rintro scope rest rfl
      rfl
    · rintro rfl
      rfl

/-- That a scope is missing hides why a body ended. -/
example : (Step.within [.pop, .get "x"]).run .none .initial = (.error .globalScope, .initial) := rfl

/-- The scope dropped at the end of a body need not be its own. -/
example : ((Step.within [.define "x" .nil, .push]).run .none .initial).2.names = [["x"], []] := rfl

end Scriptlet.Scopes
