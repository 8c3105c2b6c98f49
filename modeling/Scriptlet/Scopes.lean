import Scriptlet.Assoc
import Scriptlet.Value

/-! The scopes that are open at a point of a run. There is always one, the global scope, which is
the last of `outer`, or `innermost` when nothing is nested in it. A name means its binding in the
innermost scope that has one. -/
namespace Scriptlet

abbrev Scope := List (String × Value)

structure Scopes where
  innermost : Scope
  outer : List Scope

namespace Scopes

def initial : Scopes := ⟨[], []⟩

/-- All scopes from the innermost outwards. -/
def toList (s : Scopes) : List Scope := s.innermost :: s.outer

def depth (s : Scopes) : Nat := s.outer.length + 1

def get? (s : Scopes) (name : String) : Option Value := s.toList.findSome? (·.lookup name)

/-- Binds a name in the innermost scope. -/
def define (s : Scopes) (name : String) (value : Value) : Scopes :=
  { s with innermost := Assoc.insert s.innermost name value }

/-- Changes the binding of a name in the first of some scopes that has one. -/
def assignIn (name : String) (value : Value) : List Scope → Option (List Scope)
  | [] => none
  | scope :: scopes =>
    if (scope.lookup name).isSome then some (Assoc.insert scope name value :: scopes)
    else (assignIn name value scopes).map (scope :: ·)

/-- Changes the binding that a name means. A name without one is not bound. -/
def assign? (s : Scopes) (name : String) (value : Value) : Option Scopes :=
  if (s.innermost.lookup name).isSome then some (s.define name value)
  else (assignIn name value s.outer).map fun outer => { s with outer }

def push (s : Scopes) : Scopes := ⟨[], s.innermost :: s.outer⟩

/-- Drops the innermost scope, unless it is the global one. -/
def pop? (s : Scopes) : Option (Scope × Scopes) :=
  match s.outer with
  | [] => none
  | scope :: outer => some (s.innermost, ⟨scope, outer⟩)

/-- The innermost scope is assigned to like any other. -/
theorem assignIn_toList {s s' : Scopes} (assigned : s.assign? name value = some s') :
    assignIn name value s.toList = some s'.toList := by
  unfold assign? at assigned
  rw [toList, assignIn]
  split at assigned
  next there =>
    cases assigned
    rw [if_pos there]
    rfl
  next missing =>
    obtain ⟨outer, found, rfl⟩ := Option.map_eq_some_iff.mp assigned
    rw [if_neg missing, found]
    rfl

theorem pop?_push (s : Scopes) : s.push.pop? = some ([], s) := rfl

theorem depth_push (s : Scopes) : s.push.depth = s.depth + 1 := rfl

end Scopes

end Scriptlet
