import Scriptlet.Run.Fault
import Scriptlet.Scopes

/-! Scripts of scope operations. A step may open a scope around a list of steps, which is left at
the first of them that fails; any other work on scopes can be a step too. -/
namespace Scriptlet.Scopes

/-- A step; `α` is the work that is no scope operation. -/
inductive Step (α : Type) where
  | define (name : String) (value : Value)
  | assign (name : String) (value : Value)
  | get (name : String)
  | push
  | pop
  | within (body : List (Step α))
  | work (task : α)

/-- What a step answers; `β` is what other work answers. -/
inductive Answer (β : Type) where
  | done
  | value (v : Value)
  | dropped (scope : Scope)
  | answers (inner : List (Answer β))
  | worked (result : β)

/-- How other work is done, and how it tells of a failed scope operation. -/
structure Worker (α β ε : Type) where
  perform : α → Scopes → Except ε β × Scopes
  failure : RuntimeError → ε

/-- For scripts without other work. -/
def Worker.none : Worker Empty Empty RuntimeError := ⟨nofun, id⟩

namespace Step

mutual

/-- Runs a step. A step that fails may have changed the scopes before it did. -/
def run (worker : Worker α β ε) : Step α → Scopes → Except ε (Answer β) × Scopes
  | define name value, s => (.ok .done, s.define name value)
  | assign name value, s =>
    match s.assign? name value with
    | some s => (.ok .done, s)
    | none => (.error (worker.failure (.undefinedVariable name)), s)
  | get name, s =>
    match s.get? name with
    | some value => (.ok (.value value), s)
    | none => (.error (worker.failure (.undefinedVariable name)), s)
  | push, s => (.ok .done, s.push)
  | pop, s =>
    match s.pop? with
    | some (scope, s) => (.ok (.dropped scope), s)
    | none => (.error (worker.failure .globalScope), s)
  | within body, s =>
    let (outcome, s) := runAll worker body s.push
    match s.pop? with
    | some (_, s) => (outcome.map .answers, s)
    | none => (.error (worker.failure .globalScope), s)
  | work task, s =>
    let (outcome, s) := worker.perform task s
    (outcome.map .worked, s)

/-- Runs steps in order, up to the first that fails. -/
def runAll (worker : Worker α β ε) : List (Step α) → Scopes → Except ε (List (Answer β)) × Scopes
  | [], s => (.ok [], s)
  | step :: steps, s =>
    match run worker step s with
    | (.error e, s) => (.error e, s)
    | (.ok answer, s) =>
      let (outcome, s) := runAll worker steps s
      (outcome.map (answer :: ·), s)

end

end Step

end Scriptlet.Scopes
