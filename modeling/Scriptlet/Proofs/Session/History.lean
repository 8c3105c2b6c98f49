import Scriptlet.Proofs.Run.Names
import Scriptlet.Proofs.Session.Safety

/-! The history of a session. Whatever was run and however that ended, one scope is open afterwards.
It binds the names that were declared at the top level of what was run, and the session has an
error on record exactly if a run failed. -/
namespace Scriptlet

/-- The statements that a run of the program executes, which are none if tokens are left. -/
def Program.executed (p : Program) : List Node := if p.complete then p.statements else []

namespace Session

/-- What a prompt does it does line by line; any other step is one by itself. -/
def Step.parts : Step → List Step
  | prompt lines => lines.map run
  | step => [step]

/-- Not a prompt. -/
def Step.Single : Step → Prop
  | prompt _ => False
  | _ => True

/-- The statements that a step executes by itself. -/
def Step.executed : Step → List Node
  | run source => (Program.ofStream (Source.stream source)).executed
  | prompt _ => []
  | file bytes =>
    match Text.ofBytes? bytes with
    | some source => (Program.ofStream (Source.stream source)).executed
    | none => []
  | tokens ts =>
    match TokenStream.ofTokens? ts with
    | some stream => (Program.ofStream stream).executed
    | none => []
  | tree statements => statements

/-- The session after some steps. -/
def after (s : Session) (steps : List Step) : Session :=
  steps.foldl (fun s step => (s.step step).session) s

/-- A name has a value. -/
def Binds (s : Session) (name : String) : Prop := (s.scopes.get? name).isSome = true

/-- The step would execute a declaration of the name, one that stands in no block, to its end. -/
def Declares (s : Session) (step : Step) (name : String) : Prop :=
  Node.Declares s.level nestingLimit step.executed (.start s.scopes) name

/-- The step would be a run that returns a failure. -/
def Fails (s : Session) (step : Step) : Prop := ∃ f, (s.step step).outcome = .ok (some f)

/-- Something happened at one of the steps. -/
def Occurred (s : Session) (steps : List Step) (event : Session → Step → Prop) : Prop :=
  ∃ before step others, steps = before ++ step :: others ∧ event (s.after before) step

section Prompt

variable (s : Session)

theorem run_answered (source : String) : ∃ failure, (s.run source).outcome = .ok failure := by
  obtain ⟨failure, answered, _⟩ :=
    runProgram_safe Grammar.complete_ofStream (statements_safe source) s []
  exact ⟨failure, answered⟩

theorem prompt_session (mark : String) (lines : List String) :
    (s.prompt mark lines).session = s.after (lines.map .run) := by
  induction lines generalizing s with
  | nil => rfl
  | cons line lines ih =>
    obtain ⟨failure, answered⟩ := s.run_answered line
    simp only [prompt, answered]
    exact ih (s.run line).session

theorem after_parts (step : Step) : s.after step.parts = (s.step step).session := by
  cases step with
  | prompt lines => exact (s.prompt_session "" lines).symm
  | _ => rfl

theorem after_append (steps more : List Step) :
    s.after (steps ++ more) = (s.after steps).after more := List.foldl_append

/-- The steps can be told apart down to single ones. -/
theorem after_flatMap_parts (steps : List Step) :
    s.after (steps.flatMap Step.parts) = s.after steps := by
  induction steps generalizing s with
  | nil => rfl
  | cons step steps ih =>
    rw [List.flatMap_cons, after_append, after_parts, ih]
    rfl

theorem single_of_mem_parts {step part : Step} (mem : part ∈ step.parts) : part.Single := by
  cases step with
  | prompt lines =>
    obtain ⟨line, _, rfl⟩ := List.mem_map.mp mem
    trivial
  | _ =>
    cases List.mem_singleton.mp mem
    trivial

end Prompt

section Turn

variable {s : Session} {p : Program}

theorem scopes_runProgram :
    (s.runProgram p).session.scopes = (s.ran p.executed).2.scopes := by
  unfold runProgram Program.executed
  split
  · rw [interpret_eq]
    rcases (s.ran p.statements) with ⟨(_ | _) | _, m⟩ <;> rfl
  · rfl

theorem hadError_runProgram : (s.runProgram p).session.hadError = true ↔
    s.hadError = true ∨ ∃ f, (s.runProgram p).outcome = .ok (some f) := by
  have failed : ∀ e, ∃ f, (blame p).or (some e) = some f := by
    intro e
    cases blame p <;> exact ⟨_, rfl⟩
  cases complete : p.complete with
  | false =>
    obtain ⟨f, same⟩ := failed .unread
    simp [runProgram_of_unread complete, same]
  | true =>
    rcases ends : s.ran p.statements with ⟨fault | ⟨⟩, m⟩
    · by_cases error : ∃ e, fault = .error e
      · obtain ⟨e, rfl⟩ := error
        obtain ⟨f, same⟩ := failed (.runtime e)
        simp [runProgram_of_error complete ends, same]
      · have other : ∀ e, fault ≠ .error e := fun e same => error ⟨e, same⟩
        simp [runProgram_of_fault complete ends other]
    · rw [runProgram_of_ok complete ends]
      cases blame p <;> simp

variable {step : Step} (single : step.Single)
include single

theorem scopes_step : (s.step step).session.scopes = (s.ran step.executed).2.scopes := by
  cases step with
  | run source => exact scopes_runProgram
  | prompt lines => exact single.elim
  | file bytes =>
    simp only [Session.step, runFile, Step.executed]
    cases Text.ofBytes? bytes with
    | some source => exact scopes_runProgram
    | none => rfl
  | tokens ts =>
    simp only [Session.step, runTokens, Step.executed]
    cases TokenStream.ofTokens? ts with
    | some stream => exact scopes_runProgram
    | none => rfl
  | tree statements =>
    simp only [Session.step, runTree, Step.executed, interpret_eq]
    cases (s.ran statements).1 <;> rfl

theorem hadError_step :
    (s.step step).session.hadError = true ↔ s.hadError = true ∨ s.Fails step := by
  cases step with
  | run source => exact hadError_runProgram
  | prompt lines => exact single.elim
  | file bytes =>
    simp only [Fails, Session.step, runFile]
    cases Text.ofBytes? bytes with
    | some source => exact hadError_runProgram
    | none => simp
  | tokens ts =>
    simp only [Fails, Session.step, runTokens]
    cases TokenStream.ofTokens? ts with
    | some stream => exact hadError_runProgram
    | none => simp
  | tree statements =>
    simp only [Fails, Session.step, runTree, interpret_eq]
    cases (s.ran statements).1 <;> simp

end Turn

section Bindings

variable {s : Session} (global : s.scopes.outer = [])
include global

theorem binds_iff : s.Binds name ↔ name ∈ Assoc.keys s.scopes.innermost := by
  have only : s.scopes.get? name = s.scopes.innermost.lookup name := by
    simp [Scopes.get?, Scopes.toList, global]
  rw [Binds, only, Assoc.isSome_lookup]

theorem outer_step {step : Step} (single : step.Single) :
    (s.step step).session.scopes.outer = [] := by
  have kept := (outerNamesKept_lax.executeAll s.level step.executed nestingLimit (.start s.scopes)).1
  rw [scopes_step single, ran, exec_interpret_snd]
  have none : List.map Assoc.keys (Machine.start s.scopes).scopes.outer = [] :=
    congrArg (List.map Assoc.keys) global
  exact List.map_eq_nil_iff.mp (kept.trans none)

/-- A step binds the names that it declares. -/
theorem binds_step {step : Step} (single : step.Single) :
    (s.step step).session.Binds name ↔ s.Binds name ∨ s.Declares step name := by
  rw [binds_iff (outer_step global single), binds_iff global, scopes_step single, ran,
    exec_interpret_snd]
  exact Node.names_executeAll s.level step.executed nestingLimit (.start s.scopes) name

end Bindings

section Occurred

variable {s : Session} {step : Step} {steps : List Step} {event : Session → Step → Prop}

theorem not_occurred_nil : ¬ s.Occurred [] event := by
  rintro ⟨before, step, others, whole, _⟩
  simp at whole

theorem occurred_cons : s.Occurred (step :: steps) event ↔
    event s step ∨ (s.step step).session.Occurred steps event := by
  constructor
  · rintro ⟨before, step', others, whole, held⟩
    cases before with
    | nil =>
      cases whole
      exact .inl held
    | cons first before =>
      cases whole
      exact .inr ⟨before, step', others, rfl, held⟩
  · rintro (held | ⟨before, step', others, rfl, held⟩)
    · exact ⟨[], step, steps, rfl, held⟩
    · exact ⟨step :: before, step', others, rfl, held⟩

/-- What each step makes hold exactly if something happens at it, holds after steps exactly if it did
before or that happened at one of them. -/
theorem after_iff_occurred (holds : Session → Prop) (event : Session → Step → Prop)
    (turn : ∀ s step, s.scopes.outer = [] → step.Single →
      (holds (s.step step).session ↔ holds s ∨ event s step))
    (global : s.scopes.outer = []) (single : ∀ step ∈ steps, step.Single) :
    (s.after steps).scopes.outer = [] ∧
      (holds (s.after steps) ↔ holds s ∨ s.Occurred steps event) := by
  induction steps generalizing s with
  | nil =>
    refine ⟨global, ?_⟩
    simp only [not_occurred_nil, or_false]
    exact Iff.rfl
  | cons step steps ih =>
    obtain ⟨first, others⟩ := List.forall_mem_cons.mp single
    obtain ⟨left, later⟩ := ih (outer_step global first) others
    refine ⟨left, later.trans ?_⟩
    rw [turn s step global first, occurred_cons, or_assoc]

end Occurred

/-- After any steps from the start of a session, one scope is open. What it binds stays bound, and is
what was declared at the top level of a script or a tree by a declaration that was executed to its
end; and there is an error on record if and only if a run returned a failure. -/
theorem after_start (level : Nat) (steps : List Step) :
    ((start level).after steps).scopes.depth = 1 ∧
      (∀ name more, ((start level).after steps).Binds name →
        ((start level).after (steps ++ more)).Binds name) ∧
      (∀ name, ((start level).after steps).Binds name ↔
        (start level).Occurred (steps.flatMap Step.parts) (·.Declares · name)) ∧
      (((start level).after steps).hadError = true ↔
        (start level).Occurred (steps.flatMap Step.parts) Fails) := by
  have single : ∀ steps : List Step, ∀ part ∈ steps.flatMap Step.parts, part.Single := by
    intro steps part mem
    obtain ⟨step, _, own⟩ := List.mem_flatMap.mp mem
    exact single_of_mem_parts own
  have binds : ∀ {s : Session} (_ : s.scopes.outer = []) (steps : List Step) (name : String),
      (s.after steps).scopes.outer = [] ∧ ((s.after steps).Binds name ↔
        s.Binds name ∨ s.Occurred (steps.flatMap Step.parts) (·.Declares · name)) := by
    intro s global steps name
    rw [← after_flatMap_parts]
    exact after_iff_occurred (·.Binds name) (·.Declares · name)
      (fun _ _ global first => binds_step global first) global (single steps)
  have errors := after_iff_occurred (·.hadError = true) Fails
    (fun _ _ _ first => hadError_step first) (s := start level) rfl (single steps)
  rw [after_flatMap_parts] at errors
  refine ⟨congrArg (·.length + 1) errors.1, ?kept, ?bound, ?failed⟩
  case kept =>
    intro name more bound
    rw [after_append]
    exact ((binds errors.1 more name).2).mpr (.inl bound)
  case bound =>
    intro name
    have nothing : ¬ (start level).Binds name := by
      rw [binds_iff rfl]
      exact List.not_mem_nil
    simpa only [nothing, false_or] using (binds (s := start level) rfl steps name).2
  case failed => simpa only [start, Bool.false_eq_true, false_or] using errors.2

/-- A prompt, tokens without an end and a tree that no script has. The second line fails inside of two
blocks, the tree breaks down inside of one. -/
def mishaps : List Step :=
  [.prompt ["var a = \"x\";", "\x7b var b = a; \x7b b = c; \x7d \x7d"], .tokens [],
    .tree [.block [.declare ⟨.identifier, "d", 1⟩ .missing,
      .print (.literal ⟨.number, "none", 1⟩)]]]

theorem mishaps_after : ((start 3).after mishaps).scopes.depth = 1 ∧
    ((start 3).after (mishaps ++ [.run "a = b;"])).Binds "a" ∧
    (start 3).Occurred (mishaps.flatMap Step.parts) (·.Declares · "a") ∧
    (start 3).Occurred (mishaps.flatMap Step.parts) Fails := by
  obtain ⟨scope, kept, bound, failed⟩ := after_start 3 mishaps
  have a : ((start 3).after mishaps).Binds "a" := by
    unfold Binds
    decide +kernel
  exact ⟨scope, kept "a" _ a, (bound "a").mp a, failed.mp (by decide +kernel)⟩

end Session

end Scriptlet
