import Scriptlet.Proofs.Run.Closure

/-! Laws that every tree keeps, be it ill-formed or not, and however its run ends. A law is checked
on the few actions that touch the state; that all trees keep it follows from their structure. -/
namespace Scriptlet

namespace Action

/-- A law that no fault breaks, nor anything else that the value of an expression takes. -/
structure Lenient (law : Law) : Prop where
  fault (f : Fault) : law.fault f
  assigned {m : Machine} {scopes : Scopes} (h : m.scopes.assign? name value = some scopes) :
    law.related m { m with scopes }
  recorded (m : Machine) (event : TraceEvent) :
    law.related m { m with trace := m.trace ++ [event] }

namespace Lenient

variable {law : Law} (lenient : Lenient law)
include lenient

theorem lookup (name : String) : Obeys law (lookup name) := by
  intro m
  rw [exec_lookup]
  split <;> exact ⟨law.refl m, fun f _ => lenient.fault f⟩

theorem assign (name : String) (value : Value) : Obeys law (assign name value) := by
  intro m
  rw [exec_assign]
  split
  next scopes assigned => exact ⟨lenient.assigned assigned, fun f _ => lenient.fault f⟩
  · exact ⟨law.refl m, fun f _ => lenient.fault f⟩

theorem record (level : Nat) (event : TraceEvent) : Obeys law (record level event) := by
  intro m
  rw [exec_record]
  refine ⟨?_, fun f _ => lenient.fault f⟩
  split
  · exact lenient.recorded m event
  · exact law.refl m

theorem depth : Obeys law depth := by
  intro m
  rw [exec_depth]
  exact ⟨law.refl m, fun f _ => lenient.fault f⟩

/-- What a block does in the scope that it opens. -/
theorem entered {body : Action Unit} (h : Obeys law body) (level : Nat) :
    Obeys law (do Action.record level (.pushed (← Action.depth)); body) :=
  lenient.depth.bind fun d => (lenient.record level (.pushed d)).bind fun _ => h

theorem left {inner : Action Unit} (h : Obeys law inner) (level : Nat) :
    Obeys law (do inner; Action.record level (.popped ((← Action.depth) + 1))) :=
  h.bind fun _ => lenient.depth.bind fun d => lenient.record level (.popped (d + 1))

theorem closed : ClosedOnValues anyName (fun {_} a => Obeys law a) where
  pure := .pure
  throw _ := .throw (lenient.fault _)
  bind := .bind
  lookup _ := lenient.lookup _
  assign _ := lenient.assign _
  record := lenient.record

/-- Evaluating any tree keeps to a lenient law. -/
theorem evaluate (level : Nat) (n : Node) (budget : Nat) : Obeys law (n.evaluate level budget) :=
  lenient.closed.evaluate level n (allowed_anyName _) budget

theorem initialValue (level : Nat) (n : Node) (budget : Nat) :
    Obeys law (n.initialValue level budget) :=
  lenient.closed.initialValue level (allowed_anyName _) budget

end Lenient

/-- A lenient law that statements keep as well. -/
structure Lax (law : Law) : Prop extends Lenient law where
  printed (m : Machine) (line : String) : law.related m { m with output := m.output ++ line }
  defined (m : Machine) (name : String) (value : Value) :
    law.related m { m with scopes := m.scopes.define name value }
  block {body : Action Unit} (h : Obeys law body) (level : Nat) : Obeys law (block level body)

namespace Lax

variable {law : Law} (lax : Lax law)
include lax

theorem print (line : String) : Obeys law (print line) := by
  intro m
  rw [exec_print, String.append_assoc]
  exact ⟨lax.printed m _, fun f _ => lax.fault f⟩

theorem define (name : String) (value : Value) : Obeys law (define name value) := by
  intro m
  rw [exec_define]
  exact ⟨lax.defined m name value, fun f _ => lax.fault f⟩

theorem closed : ClosedOnStatements anyName (fun {_} a => Obeys law a) where
  toClosedOnValues := lax.toLenient.closed
  print := lax.print
  define _ := lax.define _
  block := lax.block

/-- Executing any tree keeps to a lax law. -/
theorem execute (level : Nat) (n : Node) (budget : Nat) : Obeys law (n.execute level budget) :=
  lax.closed.execute level n (allowed_anyName _) budget

theorem executeAll (level : Nat) (ns : List Node) (budget : Nat) :
    Obeys law (Node.executeAll level ns budget) :=
  lax.closed.executeAll level ns (allowed_anyName _) budget

end Lax

end Action

end Scriptlet
