/-! Sequences of computations that may fail: what their success and their failure say about the
parts. -/
namespace Scriptlet.Outcome

theorem ok_bind (a : α) (f : α → Except ε β) : (Except.ok a >>= f) = f a := rfl

theorem bind_eq_ok {x : Except ε α} {f : α → Except ε β} :
    (x >>= f) = .ok b ↔ ∃ a, x = .ok a ∧ f a = .ok b := by
  cases x with
  | error e =>
    constructor
    · intro h
      cases h
    · rintro ⟨_, h, _⟩
      cases h
  | ok a =>
    constructor
    · intro h
      exact ⟨a, rfl, h⟩
    · rintro ⟨_, h, h'⟩
      cases h
      exact h'

theorem bind_eq_error {x : Except ε α} {f : α → Except ε β} :
    (x >>= f) = .error e ↔ x = .error e ∨ ∃ a, x = .ok a ∧ f a = .error e := by
  cases x with
  | error e' =>
    constructor
    · intro h
      cases h
      exact .inl rfl
    · rintro (h | ⟨_, h, _⟩)
      · cases h
        rfl
      · cases h
  | ok a =>
    constructor
    · intro h
      exact .inr ⟨a, rfl, h⟩
    · rintro (h | ⟨_, h, h'⟩)
      · cases h
      · cases h
        exact h'

/-- A computation that fails, if at all, in a way that is allowed. -/
def FailsOnly (allowed : ε → Prop) (x : Except ε α) : Prop := ∀ e, x = .error e → allowed e

namespace FailsOnly

variable {allowed : ε → Prop}

theorem ok (a : α) : FailsOnly allowed (.ok a : Except ε α) := nofun

theorem error (own : allowed e) : FailsOnly allowed (.error e : Except ε α) := by
  intro e' same
  cases same
  exact own

theorem bind {x : Except ε α} {f : α → Except ε β} (first : FailsOnly allowed x)
    (next : ∀ a, FailsOnly allowed (f a)) : FailsOnly allowed (x >>= f) := by
  intro e failed
  rcases bind_eq_error.mp failed with failed | ⟨a, _, failed⟩
  · exact first e failed
  · exact next a e failed

theorem mapM {f : α → Except ε β} {as : List α} (each : ∀ a ∈ as, FailsOnly allowed (f a)) :
    FailsOnly allowed (as.mapM f) := by
  induction as with
  | nil => exact ok _
  | cons a as ih =>
    obtain ⟨first, others⟩ := List.forall_mem_cons.mp each
    rw [List.mapM_cons]
    exact first.bind fun _ => (ih others).bind fun _ => ok _

end FailsOnly

/-- A computation whose result, if there is one, is as it should be. -/
def YieldsOnly (allowed : α → Prop) (x : Except ε α) : Prop := ∀ a, x = .ok a → allowed a

namespace YieldsOnly

variable {allowed : α → Prop} {next : β → Prop}

theorem ok (own : allowed a) : YieldsOnly allowed (.ok a : Except ε α) := by
  intro a' same
  cases same
  exact own

theorem error (e : ε) : YieldsOnly allowed (.error e : Except ε α) := nofun

theorem any (x : Except ε α) : YieldsOnly (fun _ => True) x := fun _ _ => trivial

theorem bind {x : Except ε α} {f : α → Except ε β} (first : YieldsOnly allowed x)
    (others : ∀ a, allowed a → YieldsOnly next (f a)) : YieldsOnly next (x >>= f) := by
  intro b made
  obtain ⟨a, yielded, made⟩ := bind_eq_ok.mp made
  exact others a (first a yielded) b made

theorem mapM {f : α → Except ε β} (each : ∀ a, YieldsOnly next (f a)) (as : List α) :
    YieldsOnly (fun bs => ∀ b ∈ bs, next b) (as.mapM f) := by
  induction as with
  | nil => exact ok nofun
  | cons a as ih =>
    rw [List.mapM_cons]
    refine (each a).bind fun b own => ih.bind fun bs all => ok ?_
    exact List.forall_mem_cons.mpr ⟨own, all⟩

end YieldsOnly

end Scriptlet.Outcome
