import Scriptlet.Proofs.Run.Names
import Scriptlet.Proofs.Run.Safety

/-! The debug level has no part in what a run does. At a higher level a run traces more, and what it
would have traced at a lower one is what is left if the other events are dropped. Only its depth can
keep a tree of a script from being rendered for the trace, so runs are compared that no limit on
nesting stops. -/
namespace Scriptlet

/-- The machine, had it traced only the events that a level asks for. -/
def Machine.upTo (level : Nat) (m : Machine) : Machine :=
  { m with trace := m.trace.filter (·.level ≤ level) }

@[simp]
theorem Machine.scopes_upTo (m : Machine) : (m.upTo level).scopes = m.scopes := rfl

namespace Action

/-- Unless nesting stops the loud action, the other does the same, and traces of it what a level asks
for. -/
def Muted (level : Nat) (a loud : Action α) : Prop :=
  ∀ m, (loud.exec m).1 ≠ .error .tooDeep →
    a.exec (m.upTo level) = ((loud.exec m).1, (loud.exec m).2.upTo level)

/-- Traces an event that shows a tree, from some level on. -/
def tell (least level budget : Nat) (n : Node) (event : String → TraceEvent) : Action Unit :=
  if least ≤ level then shown budget n >>= fun text => record level (event text) else return ()

theorem traceStatement_eq (level budget : Nat) (n : Node) :
    traceStatement level budget n = tell 1 level budget n .executed := rfl

theorem traceValue_eq (level budget : Nat) (n : Node) (value : Value) :
    traceValue level budget n value =
      tell 3 level budget n (.evaluated · value) >>= fun _ => return value := by
  unfold traceValue tell
  split
  · rw [bind_assoc]
  · rw [pure_bind]

namespace Muted

variable {low high : Nat}

theorem pure (x : α) : Muted low (pure x) (pure x) := fun _ _ => rfl

theorem throw (f : Fault) : Muted low (throw f : Action α) (throw f) := fun _ _ => rfl

theorem bind {a b : Action α} {f g : α → Action β} (first : Muted low a b)
    (next : ∀ x, Muted low (f x) (g x)) : Muted low (a >>= f) (b >>= g) := by
  intro m shallow
  have same := first m
  rw [exec_bind] at shallow
  rw [exec_bind, exec_bind]
  rcases run : b.exec m with ⟨e | x, m'⟩ <;> rw [run] at same shallow
  · have ended : a.exec (m.upTo low) = (.error e, m'.upTo low) :=
      same fun deep => shallow (congrArg Except.error (Except.error.inj deep))
    rw [ended]
  · have went : a.exec (m.upTo low) = (.ok x, m'.upTo low) := same nofun
    rw [went]
    exact next x m' shallow

theorem liftM (x : Except Fault α) : Muted low (liftM x : Action α) (liftM x) := by
  intro m _
  rw [exec_liftM, exec_liftM]

theorem discard {a b : Action α} (h : Muted low a b) : Muted low (discard a) (discard b) := by
  rw [discard_eq, discard_eq]
  exact h.bind fun _ => pure ()

theorem lookup (name : String) : Muted low (lookup name) (lookup name) := by
  intro m _
  rw [exec_lookup, exec_lookup, Machine.scopes_upTo]
  cases m.scopes.get? name <;> rfl

theorem assign (name : String) (value : Value) :
    Muted low (assign name value) (assign name value) := by
  intro m _
  rw [exec_assign, exec_assign, Machine.scopes_upTo]
  cases m.scopes.assign? name value <;> rfl

theorem define (name : String) (value : Value) :
    Muted low (define name value) (define name value) := fun _ _ => rfl

theorem print (line : String) : Muted low (print line) (print line) := fun _ _ => rfl

theorem depth : Muted low depth depth := fun _ _ => rfl

theorem record (le : low ≤ high) (event : TraceEvent) :
    Muted low (record low event) (record high event) := by
  intro m _
  rw [exec_record, exec_record]
  by_cases own : event.level ≤ low
  · rw [if_pos own, if_pos (Nat.le_trans own le)]
    simp [Machine.upTo, own]
  · rw [if_neg own]
    split <;> simp [Machine.upTo, own]

/-- A body that keeps to its own scope has one to drop, at either level. -/
theorem within {body loud : Action α} (kept : Obeys outerNamesKept loud)
    (h : Muted low body loud) : Muted low (within body) (within loud) := by
  intro m shallow
  obtain ⟨left, _⟩ := kept { m with scopes := m.scopes.push }
  obtain ⟨scope, outer, popped, _⟩ := Scopes.names_pop? left
  have pushed : { m.upTo low with scopes := (m.upTo low).scopes.push } =
      Machine.upTo low { m with scopes := m.scopes.push } := rfl
  have dropped : ((loud.exec { m with scopes := m.scopes.push }).2.upTo low).scopes.pop? =
      some (scope, outer) := popped
  rw [exec_within, popped] at shallow
  rw [exec_within, exec_within, pushed, h _ shallow, popped, dropped]
  rfl

theorem shown (budget : Nat) (n : Node) : Muted low (shown budget n) (shown budget n) := by
  unfold Action.shown
  split
  · exact pure _
  · exact throw _

/-- What only the higher level asks for leaves nothing behind at the lower one. -/
theorem aside {n : Node} (renders : n.Renders) (budget : Nat) {event : String → TraceEvent}
    (above : ∀ text, ¬ (event text).level ≤ low) :
    Muted low (return ()) (Action.shown budget n >>= fun text => Action.record high (event text)) := by
  intro m shallow
  unfold Action.shown at shallow ⊢
  rcases rendered : n.render budget with f | text <;> rw [rendered] at shallow
  · obtain rfl := renders budget f rendered
    exact absurd rfl shallow
  · simp only [pure_bind]
    rw [exec_pure, exec_record]
    split <;> simp [Machine.upTo, above text]

theorem tell (le : low ≤ high) {n : Node} (renders : n.Renders) (budget : Nat) {least : Nat}
    {event : String → TraceEvent} (level : ∀ text, (event text).level = least) :
    Muted low (tell least low budget n event) (tell least high budget n event) := by
  unfold Action.tell
  by_cases own : least ≤ low
  · rw [if_pos own, if_pos (Nat.le_trans own le)]
    exact (shown budget n).bind fun text => record le (event text)
  · rw [if_neg own]
    split
    · exact aside renders budget fun text asked => own (level text ▸ asked)
    · exact pure ()

theorem reassign (le : low ≤ high) (name : Token) (value : Value) :
    Muted low (reassign low name value) (reassign high name value) :=
  (assign name.lexeme value).bind fun _ => (record le _).bind fun _ => pure value

theorem declare (le : low ≤ high) (name : Token) (value : Value) :
    Muted low (declare low name value) (declare high name value) :=
  (define name.lexeme value).bind fun _ => record le _

theorem block (le : low ≤ high) {body loud : Action Unit} (kept : Obeys outerNamesKept loud)
    (h : Muted low body loud) : Muted low (block low body) (block high loud) := by
  have inner := depth.bind fun d => (record le (.pushed d)).bind fun _ => h
  exact (within (outerNamesKept_lenient.entered kept high) inner).bind fun _ =>
    depth.bind fun d => record le (.popped (d + 1))

theorem unary (operator : Token) (value : Value) :
    Muted low (unary operator value) (unary operator value) := by
  unfold Action.unary
  split
  · split
    · exact pure _
    · exact throw _
  · exact pure _
  · exact throw _

theorem binary (budget : Nat) (whole : Node) (operator : Token) (left right : Value) :
    Muted low (binary budget whole operator left right) (binary budget whole operator left right) := by
  unfold Action.binary
  split
  · exact throw _
  split
  · exact liftM _
  · exact (shown budget whole).bind fun _ => throw _

theorem evaluate (le : low ≤ high) {n : Node} (renders : n.Renders)
    (result : ∀ budget, Muted low (n.result low budget) (n.result high budget)) (budget : Nat) :
    Muted low (n.evaluate low budget) (n.evaluate high budget) := by
  rw [Node.evaluate_eq, Node.evaluate_eq]
  split
  · exact throw _
  · refine (result budget).bind fun value => ?_
    have traced : Muted low (Action.tell 3 low (budget - 1) n (.evaluated · value))
        (Action.tell 3 high (budget - 1) n (.evaluated · value)) := tell le renders _ fun _ => rfl
    rw [traceValue_eq, traceValue_eq]
    exact traced.bind fun _ => pure value

theorem execute (le : low ≤ high) {n : Node} (renders : n.Renders)
    (effect : ∀ budget, Muted low (n.effect low budget) (n.effect high budget)) (budget : Nat) :
    Muted low (n.execute low budget) (n.execute high budget) := by
  rw [Node.execute_eq, Node.execute_eq]
  split
  · exact throw _
  · have traced : Muted low (Action.tell 1 low (budget - 1) n .executed)
        (Action.tell 1 high (budget - 1) n .executed) := tell le renders _ fun _ => rfl
    rw [traceStatement_eq, traceStatement_eq]
    exact traced.bind fun _ => effect budget

end Muted

end Action

namespace Grammar

open Scriptlet.Action (Muted)

variable {low high : Nat}

theorem Derives.muted (h : Derives c ts n) (le : low ≤ high) :
    ∀ budget, Muted low (n.evaluate low budget) (n.evaluate high budget) := by
  have renders := h.renders
  induction h with
  | equality _ ih | operand _ ih | primary _ ih => exact ih renders
  | literal _ => exact .evaluate le renders fun _ => .liftM _
  | reference _ => exact .evaluate le renders fun _ => .lookup _
  | assign _ _ value ih =>
    refine .evaluate le renders ?_
    intro budget
    exact (ih value.renders _).bind (.reassign le _)
  | operation left _ _ right leftMuted rightMuted =>
    refine .evaluate le renders ?_
    intro budget
    exact (leftMuted left.renders _).bind fun x => (rightMuted right.renders _).bind fun y =>
      .binary _ _ _ x y
  | negation _ _ inner ih =>
    refine .evaluate le renders ?_
    intro budget
    exact (ih inner.renders _).bind (.unary _)
  | grouping _ inner _ ih => exact .evaluate le renders fun _ => ih inner.renders _

theorem Derives.initialValue_muted (h : Derives c ts n) (le : low ≤ high) (budget : Nat) :
    Muted low (n.initialValue low budget) (n.initialValue high budget) := by
  rw [Node.initialValue_of_ne_missing h.ne_missing, Node.initialValue_of_ne_missing h.ne_missing]
  exact h.muted le budget

mutual

theorem Declaration.muted (le : low ≤ high) : ∀ {ts n}, Declaration gap ts n → ∀ budget,
    Muted low (n.execute low budget) (n.execute high budget)
  | _, _, declared@(.bare _ _ _), budget => by
    apply Muted.execute le declared.renders
    intro b
    exact (Muted.pure Value.nil).bind (.declare le _)
  | _, _, declared@(.initialised _ _ _ value _), budget => by
    apply Muted.execute le declared.renders
    intro b
    exact (value.initialValue_muted le (b - 1)).bind (.declare le _)
  | _, _, declared@(.print _ value _), budget => by
    apply Muted.execute le declared.renders
    intro b
    exact (value.muted le (b - 1)).bind fun v => .print v.display
  | _, _, declared@(.expression value _), budget => by
    apply Muted.execute le declared.renders
    intro b
    exact (value.muted le (b - 1)).discard
  | _, _, declared@(.block _ body _), budget => by
    apply Muted.execute le declared.renders
    intro b
    exact .block le (outerNamesKept_lax.executeAll high _ (b - 1))
      (Declarations.muted le body (b - 1))

/-- The statements of a text do the same at both levels, also if parts of the text were left out. -/
theorem Declarations.muted (le : low ≤ high) : ∀ {ts ns}, Declarations gap ts ns → ∀ budget,
    Muted low (Node.executeAll low ns budget) (Node.executeAll high ns budget)
  | _, _, .done, budget => by
    rw [Node.executeAll_nil, Node.executeAll_nil]
    exact .pure ()
  | _, _, .next first others, budget => by
    rw [Node.executeAll_cons, Node.executeAll_cons]
    exact (Declaration.muted le first budget).bind fun _ => Declarations.muted le others budget
  | _, _, .skip _ others, budget => Declarations.muted le others budget

end

end Grammar

/-- Whole runs do the same, unless the error of too much nesting ends the one at the higher level. -/
theorem interpret_muted {low high : Nat} {ns : List Node} {m : Machine}
    (muted : ∀ budget, Action.Muted low (Node.executeAll low ns budget)
      (Node.executeAll high ns budget))
    (shallow : ((interpret high ns).exec m).1 ≠ .error (.error .tooDeep)) :
    (interpret low ns).exec (m.upTo low) =
      (((interpret high ns).exec m).1, ((interpret high ns).exec m).2.upTo low) := by
  have same := muted nestingLimit m
  rw [exec_interpret] at shallow
  rw [exec_interpret, exec_interpret]
  rcases run : (Node.executeAll high ns nestingLimit).exec m with ⟨f | ⟨⟩, m'⟩ <;>
    rw [run] at same shallow
  · cases f with
    | tooDeep => exact absurd rfl shallow
    | _ => rw [same nofun]
  · rw [same nofun]

end Scriptlet
