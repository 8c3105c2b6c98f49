import Scriptlet.Node.Render
import Scriptlet.Run.Fault
import Scriptlet.Scopes

/-! The state of a running script: the open scopes, what was printed, and what was traced. An action
keeps its effects when it ends in a fault. -/
namespace Scriptlet

def Fault.ofRender : RenderFault → Fault
  | .unknown sort => .unrenderable sort
  | .tooDeep => .tooDeep

/-- A step of a run that the debug trace tells about. -/
inductive TraceEvent where
  | executed (shown : String)
  | defined (name : String) (value : Value)
  | assigned (name : String) (value : Value)
  | pushed (depth : Nat)
  | popped (depth : Nat)
  | evaluated (shown : String) (value : Value)
  deriving DecidableEq

def TraceEvent.text : TraceEvent → String
  | executed shown => "execute " ++ shown
  | defined name value =>
    "define " ++ name ++ ": " ++ value.typeName ++ " = " ++ value.display
  | assigned name value =>
    "assign " ++ name ++ ": " ++ value.typeName ++ " = " ++ value.display
  | pushed depth => "push scope (depth " ++ toString depth ++ ")"
  | popped depth => "pop scope (depth " ++ toString depth ++ ")"
  | evaluated shown value => "evaluate " ++ shown ++ " -> " ++ value.display

/-- The lowest debug level at which an event is traced. -/
def TraceEvent.level : TraceEvent → Nat
  | executed _ => 1
  | defined _ _ | assigned _ _ | pushed _ | popped _ => 2
  | evaluated _ _ => 3

structure Machine where
  scopes : Scopes
  output : String
  trace : List TraceEvent

/-- A machine that has done nothing yet. -/
def Machine.start (scopes : Scopes) : Machine := ⟨scopes, "", []⟩

abbrev Action := ExceptT Fault (StateM Machine)

namespace Action

/-- Runs an action on some scopes. -/
def on (action : Action α) (scopes : Scopes) : Except Fault α × Machine :=
  StateT.run (ExceptT.run action) (.start scopes)

def fail (e : RuntimeError) : Action α := throw (.error e)

def lookup (name : String) : Action Value := do
  match (← get).scopes.get? name with
  | some value => return value
  | none => fail (.undefinedVariable name)

def define (name : String) (value : Value) : Action Unit :=
  modify fun m => { m with scopes := m.scopes.define name value }

def assign (name : String) (value : Value) : Action Unit := do
  match (← get).scopes.assign? name value with
  | some scopes => modify fun m => { m with scopes }
  | none => fail (.undefinedVariable name)

def print (line : String) : Action Unit :=
  modify fun m => { m with output := m.output ++ line ++ "\n" }

/-- Traces an event if the debug level asks for it. -/
def record (level : Nat) (event : TraceEvent) : Action Unit :=
  if event.level ≤ level then modify fun m => { m with trace := m.trace ++ [event] }
  else return ()

def depth : Action Nat := return (← get).scopes.depth

/-- The rendered form of a tree. -/
def shown (budget : Nat) (n : Node) : Action String :=
  match n.render budget with
  | .ok text => return text
  | .error f => throw (.ofRender f)

/-- Runs an action in a scope of its own, which is dropped however the action ends. What is dropped
is the scope that is then the innermost; if that is the global one, this is the error that
counts. -/
def within (action : Action α) : Action α :=
  ExceptT.mk fun m =>
    let (outcome, m) := StateT.run (ExceptT.run action) { m with scopes := m.scopes.push }
    match m.scopes.pop? with
    | some (_, scopes) => (outcome, { m with scopes })
    | none => (.error (.error .globalScope), m)

end Action

end Scriptlet
