import Mathlib.Data.List.Forall2
import Scriptlet.Scopes.Script

/-! Scripts of scope operations told by their calls. However deep the bodies of a script nest and
wherever they are left, what it does to the scopes is what the calls in it do one after another, in
the order in which it comes to them; and its answers and errors are those of its calls. -/
namespace Scriptlet.Scopes

/-- An operation on scopes that has no body. -/
inductive Call (ν : Type) where
  | define (name : ν) (value : Value)
  | assign (name : ν) (value : Value)
  | get (name : ν)
  | push
  | pop

namespace Call

/-- The call as a step. -/
def step : Call String → Step α
  | define name value => .define name value
  | assign name value => .assign name value
  | get name => .get name
  | push => .push
  | pop => .pop

def on (c : Call String) (s : Scopes) : Except RuntimeError (Answer Empty) × Scopes :=
  c.step.run .none s

end Call

section Sequence

variable (act : κ → σ → ρ × σ)

/-- What calls lead to, made one after another whether they fail or not. -/
def reached (cs : List κ) (s : σ) : σ := cs.foldl (fun s c => (act c s).2) s

/-- The calls with what each of them answers. -/
def transcript : List κ → σ → List (κ × ρ)
  | [], _ => []
  | c :: cs, s => (c, (act c s).1) :: transcript cs (act c s).2

theorem reached_cons (c : κ) (cs : List κ) (s : σ) :
    reached act (c :: cs) s = reached act cs (act c s).2 := rfl

theorem reached_append (cs ds : List κ) (s : σ) :
    reached act (cs ++ ds) s = reached act ds (reached act cs s) := List.foldl_append

theorem transcript_append (cs ds : List κ) (s : σ) :
    transcript act (cs ++ ds) s = transcript act cs s ++ transcript act ds (reached act cs s) := by
  induction cs generalizing s with
  | nil => rfl
  | cons c cs ih => exact congrArg ((c, (act c s).1) :: ·) (ih (act c s).2)

end Sequence

namespace Step

variable (worker : Worker α β ε)

mutual

/-- The calls of a step, in the order in which they are made. A body is entered by a push and left by a
pop. -/
def calls : Step α → Scopes → List (Call String)
  | define name value, _ => [.define name value]
  | assign name value, _ => [.assign name value]
  | get name, _ => [.get name]
  | push, _ => [.push]
  | pop, _ => [.pop]
  | within body, s => .push :: (callsAll body s.push ++ [.pop])
  | work _, _ => []

/-- The calls of a body, which come to an end at the first step that fails. -/
def callsAll : List (Step α) → Scopes → List (Call String)
  | [], _ => []
  | step :: steps, s =>
    step.calls s ++
      match step.run worker s with
      | (.ok _, s) => callsAll steps s
      | (.error _, _) => []

end

/-- Runs steps one by one, where one that fails does not keep the others from being run. -/
def runEach : List (Step α) → Scopes → List (Except ε (Answer β)) × Scopes
  | [], s => ([], s)
  | step :: steps, s =>
    let (outcome, s) := step.run worker s
    let (others, s) := runEach steps s
    (outcome :: others, s)

def callsEach : List (Step α) → Scopes → List (Call String)
  | [], _ => []
  | step :: steps, s => step.calls worker s ++ callsEach steps (step.run worker s).2

end Step

/-- Work of another kind that leaves the scopes alone: it answers, or fails as it likes. -/
structure Bystander (α β ε : Type) where
  perform : α → Scopes → Except ε β
  failure : RuntimeError → ε

def Bystander.worker (b : Bystander α β ε) : Worker α β ε :=
  ⟨fun task s => (b.perform task s, s), b.failure⟩

section Call

variable {s : Scopes}

theorem on_define :
    (Call.define name value).on s = (.ok .done, s.define name value) := rfl

theorem on_assign : (Call.assign name value).on s =
    match s.assign? name value with
    | some s => (.ok .done, s)
    | none => (.error (.undefinedVariable name), s) := rfl

theorem on_get : (Call.get name).on s =
    match s.get? name with
    | some value => (.ok (.value value), s)
    | none => (.error (.undefinedVariable name), s) := rfl

theorem on_get_snd : ((Call.get name).on s).2 = s := by
  rw [on_get]
  cases s.get? name <;> rfl

theorem on_push : Call.push.on s = (.ok .done, s.push) := rfl

theorem on_pop : Call.pop.on s =
    match s.pop? with
    | some (scope, s) => (.ok (.dropped scope), s)
    | none => (.error .globalScope, s) := rfl

end Call

namespace Step

section Equations

variable {worker : Worker α β ε} {s t : Scopes}

theorem run_within (worker : Worker α β ε) (body : List (Step α)) (s : Scopes) :
    (within body).run worker s =
      match (runAll worker body s.push).2.pop? with
      | some (_, t) => ((runAll worker body s.push).1.map .answers, t)
      | none => (.error (worker.failure .globalScope), (runAll worker body s.push).2) := rfl

theorem runAll_of_ok (ran : step.run worker s = (.ok answer, t)) (steps : List (Step α)) :
    runAll worker (step :: steps) s =
      ((runAll worker steps t).1.map (answer :: ·), (runAll worker steps t).2) := by
  rw [runAll, ran]

theorem runAll_of_error (ran : step.run worker s = (.error e, t)) (steps : List (Step α)) :
    runAll worker (step :: steps) s = (.error e, t) := by
  rw [runAll, ran]

theorem callsAll_of_ok (ran : step.run worker s = (.ok answer, t)) (steps : List (Step α)) :
    callsAll worker (step :: steps) s = step.calls worker s ++ callsAll worker steps t := by
  rw [callsAll, ran]

theorem callsAll_of_error (ran : step.run worker s = (.error e, t)) (steps : List (Step α)) :
    callsAll worker (step :: steps) s = step.calls worker s := by
  rw [callsAll, ran, List.append_nil]

end Equations

variable (b : Bystander α β ε)

theorem run_step_snd (c : Call String) (s : Scopes) :
    ((c.step : Step α).run b.worker s).2 = (c.on s).2 := by
  cases c with
  | assign name value =>
    rw [on_assign]
    simp only [Call.step, run]
    cases s.assign? name value <;> rfl
  | get name =>
    rw [on_get]
    simp only [Call.step, run]
    cases s.get? name <;> rfl
  | pop =>
    rw [on_pop]
    simp only [Call.step, run]
    rcases s.pop? with _ | ⟨scope, s⟩ <;> rfl
  | _ => rfl

theorem run_within_snd (body : List (Step α)) (s : Scopes) :
    ((within body).run b.worker s).2 = (Call.pop.on (runAll b.worker body s.push).2).2 := by
  rw [on_pop, run_within]
  rcases (runAll b.worker body s.push).2.pop? with _ | ⟨scope, t⟩ <;> rfl

mutual

/-- A step does to the scopes what its calls do. -/
theorem reached_calls : ∀ (step : Step α) (s : Scopes),
    reached Call.on (step.calls b.worker s) s = (step.run b.worker s).2
  | define name value, s => (run_step_snd b (.define name value) s).symm
  | assign name value, s => (run_step_snd b (.assign name value) s).symm
  | get name, s => (run_step_snd b (.get name) s).symm
  | push, s => (run_step_snd b .push s).symm
  | pop, s => (run_step_snd b .pop s).symm
  | within body, s => by
    rw [calls, reached_cons, on_push, reached_append, reached_callsAll body s.push,
      run_within_snd]
    rfl
  | work _, _ => rfl

theorem reached_callsAll : ∀ (steps : List (Step α)) (s : Scopes),
    reached Call.on (callsAll b.worker steps s) s = (runAll b.worker steps s).2
  | [], _ => rfl
  | step :: steps, s => by
    have first := reached_calls step s
    rcases ran : step.run b.worker s with ⟨e | answer, t⟩ <;> rw [ran] at first
    · rw [callsAll_of_error ran, runAll_of_error ran, first]
    · rw [callsAll_of_ok ran, runAll_of_ok ran, reached_append, first, reached_callsAll steps t]

end

theorem reached_callsEach : ∀ (steps : List (Step α)) (s : Scopes),
    reached Call.on (callsEach b.worker steps s) s = (runEach b.worker steps s).2
  | [], _ => rfl
  | step :: steps, s => by
    rw [callsEach, runEach, reached_append, reached_calls]
    exact reached_callsEach steps (step.run b.worker s).2

end Step

/-- The values in an answer, in the order in which they were asked for. -/
def Answer.values : Answer β → List Value
  | value v => [v]
  | answers inner => valuesAll inner
  | done | dropped _ | worked _ => []
where
  valuesAll : List (Answer β) → List Value
    | [] => []
    | first :: others => first.values ++ valuesAll others

/-- A call with its answer. -/
abbrev Entry := Call String × Except RuntimeError (Answer Empty)

namespace Entry

def values (e : Entry) : List Value :=
  match e.2 with
  | .ok answer => answer.values
  | .error _ => []

def error? (e : Entry) : Option RuntimeError :=
  match e.2 with
  | .ok _ => none
  | .error e => some e

end Entry

/-- What comes of a step, given the calls in it: the values that they found, or the error of the last
of them to fail, unless what failed was other work. -/
def Told (b : Bystander α β ε) (log : List Entry) : Except ε (List Value) → Prop
  | .ok values => log.flatMap Entry.values = values
  | .error e => (∃ task s, b.perform task s = .error e) ∨
      ∃ r, (log.filterMap Entry.error?).getLast? = some r ∧ e = b.failure r

namespace Told

variable {b : Bystander α β ε} {log others : List Entry}

theorem append (first : Told b log (.ok values)) (next : Told b others outcome) :
    Told b (log ++ others) (outcome.map (values ++ ·)) := by
  cases outcome with
  | ok more =>
    change _ = _ at first next
    change _ = _
    rw [List.flatMap_append, first, next]
  | error e =>
    refine next.imp_right ?_
    rintro ⟨r, last, rfl⟩
    refine ⟨r, ?_, rfl⟩
    rw [List.filterMap_append, List.getLast?_append, last]
    rfl

/-- The scope of a body makes no difference if there is one to drop at its end. -/
theorem around (h : Told b log outcome) (scope : Scope) :
    Told b ((.push, .ok .done) :: (log ++ [(.pop, .ok (.dropped scope))])) outcome := by
  have values : ((.push, .ok .done) :: (log ++ [(.pop, .ok (.dropped scope))])).flatMap
      Entry.values = log.flatMap Entry.values := by
    simp [Entry.values, Answer.values]
  have errors : ((.push, .ok .done) :: (log ++ [(.pop, .ok (.dropped scope))])).filterMap
      Entry.error? = log.filterMap Entry.error? := by
    simp [Entry.error?, List.filterMap_cons]
  cases outcome with
  | ok _ => exact values.trans h
  | error e =>
    change _ ∨ _
    rw [errors]
    exact h

end Told

namespace Step

variable (b : Bystander α β ε)

theorem told_call (c : Call String) (s : Scopes) :
    Told b [(c, (c.on s).1)] (((c.step : Step α).run b.worker s).1.map Answer.values) := by
  cases c with
  | assign name value =>
    rw [on_assign]
    simp only [Call.step, run]
    cases s.assign? name value
    · exact .inr ⟨_, rfl, rfl⟩
    · rfl
  | get name =>
    rw [on_get]
    simp only [Call.step, run]
    cases s.get? name
    · exact .inr ⟨_, rfl, rfl⟩
    · rfl
  | pop =>
    rw [on_pop]
    simp only [Call.step, run]
    rcases s.pop? with _ | ⟨scope, s⟩
    · exact .inr ⟨_, rfl, rfl⟩
    · rfl
  | _ => rfl

mutual

/-- What comes of a step is what its calls answered. -/
theorem told_calls : ∀ (step : Step α) (s : Scopes),
    Told b (transcript Call.on (step.calls b.worker s) s) ((step.run b.worker s).1.map Answer.values)
  | define name value, s => told_call b (.define name value) s
  | assign name value, s => told_call b (.assign name value) s
  | get name, s => told_call b (.get name) s
  | push, s => told_call b .push s
  | pop, s => told_call b .pop s
  | within body, s => by
    have inner := told_callsAll body s.push
    have whole : transcript Call.on (calls b.worker (within body) s) s =
        (.push, .ok .done) :: (transcript Call.on (callsAll b.worker body s.push) s.push ++
          [(.pop, (Call.pop.on (runAll b.worker body s.push).2).1)]) := by
      rw [calls, transcript, on_push, transcript_append, reached_callsAll]
      rfl
    rw [whole, on_pop, run_within]
    rcases (runAll b.worker body s.push).2.pop? with _ | ⟨scope, t⟩
    · refine .inr ⟨.globalScope, ?_, rfl⟩
      rw [← List.cons_append, List.filterMap_append, List.getLast?_append]
      rfl
    · have left := inner.around scope
      cases ended : (runAll b.worker body s.push).1 <;> rw [ended] at left <;> exact left
  | work task, s => by
    change Told b [] (((b.perform task s).map .worked).map Answer.values)
    cases failed : b.perform task s with
    | ok result => rfl
    | error e => exact .inl ⟨task, s, failed⟩

theorem told_callsAll : ∀ (steps : List (Step α)) (s : Scopes),
    Told b (transcript Call.on (callsAll b.worker steps s) s)
      ((runAll b.worker steps s).1.map Answer.values.valuesAll)
  | [], _ => rfl
  | step :: steps, s => by
    have first := told_calls step s
    have moved := reached_calls b step s
    rcases ran : step.run b.worker s with ⟨e | answer, t⟩ <;> rw [ran] at first moved
    · rw [callsAll_of_error ran, runAll_of_error ran]
      exact first
    · have both := first.append (told_callsAll steps t)
      rw [callsAll_of_ok ran, runAll_of_ok ran, transcript_append, moved]
      cases ended : (runAll b.worker steps t).1 <;> rw [ended] at both <;> exact both

end

/-- The calls of steps run one by one are those of each, with what comes of each. -/
theorem told_callsEach : ∀ (steps : List (Step α)) (s : Scopes), ∃ logs,
    transcript Call.on (callsEach b.worker steps s) s = logs.flatten ∧
      List.Forall₂ (Told b) logs ((runEach b.worker steps s).1.map (·.map Answer.values))
  | [], _ => ⟨[], rfl, .nil⟩
  | step :: steps, s => by
    obtain ⟨logs, whole, each⟩ := told_callsEach steps (step.run b.worker s).2
    refine ⟨transcript Call.on (step.calls b.worker s) s :: logs, ?_, .cons (told_calls b step s) each⟩
    rw [callsEach, transcript_append, reached_calls, whole, List.flatten_cons]

end Step

end Scriptlet.Scopes
