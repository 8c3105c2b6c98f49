import Mathlib.Data.List.Forall2
import Scriptlet.Proofs.Run.Frame
import Scriptlet.Proofs.Run.Framing

/-! The trace of blocks. Each block announces itself, then traces that a scope was pushed, and that it
was popped if its end is reached. So pushes and pops are bracketed, and what a failing run leaves
open are the blocks around the statement that failed. -/
namespace Scriptlet

open Scriptlet.Action (Law Obeys)

/-- A push that no pop has closed, with the statement that announced it. -/
structure Opening where
  shown : String
  depth : Nat
  deriving DecidableEq

/-- How far a trace has been read: the statement announced by the last event, if it announced one,
and the open pushes, the latest first. -/
structure Bracketing where
  announced : Option String
  opened : List Opening

namespace Bracketing

/-- Reads on by one event. A push has to follow the announcement of a statement and to carry two more
than there are open pushes. A pop closes the latest of them, with the same depth. -/
def next (b : Bracketing) : TraceEvent → Option Bracketing
  | .executed shown => some { b with announced := some shown }
  | .pushed depth =>
    match b.announced with
    | some shown =>
      if depth = b.opened.length + 2 then some ⟨none, ⟨shown, depth⟩ :: b.opened⟩ else none
    | none => none
  | .popped depth =>
    match b.opened with
    | latest :: others => if depth = latest.depth then some ⟨none, others⟩ else none
    | [] => none
  | _ => some { b with announced := none }

def ofTrace (trace : List TraceEvent) : Option Bracketing := trace.foldlM next ⟨none, []⟩

theorem ofTrace_append (read : ofTrace trace = some b) (events : List TraceEvent) :
    ofTrace (trace ++ events) = events.foldlM next b := by
  unfold ofTrace at read ⊢
  rw [List.foldlM_append, read]
  rfl

end Bracketing

/-- The pushes of a well-bracketed trace that are left open, the first of them first. -/
def unclosed (trace : List TraceEvent) : Option (List Opening) :=
  (Bracketing.ofTrace trace).map (·.opened.reverse)

/-! ### Events that are no brackets -/

def TraceEvent.isBracket : TraceEvent → Bool
  | pushed _ | popped _ => true
  | _ => false

/-- What is traced are no brackets. -/
def plain : Law where
  related m m' := ∃ events, m'.trace = m.trace ++ events ∧ ∀ e ∈ events, e.isBracket = false
  refl m := ⟨[], (List.append_nil m.trace).symm, nofun⟩
  trans := by
    rintro m n o ⟨events, first, plain⟩ ⟨more, second, plain'⟩
    refine ⟨events ++ more, ?_, List.forall_mem_append.mpr ⟨plain, plain'⟩⟩
    rw [second, first, List.append_assoc]
  fault _ := True

namespace Action

theorem plain_of_trace {a : Action α} (same : ∀ m, (a.exec m).2.trace = m.trace) : Obeys plain a :=
  fun m => ⟨⟨[], (same m).trans (List.append_nil m.trace).symm, nofun⟩, fun _ _ => trivial⟩

theorem record_plain (level : Nat) {event : TraceEvent} (own : event.isBracket = false) :
    Obeys plain (record level event) := by
  intro m
  rw [exec_record]
  refine ⟨?_, fun _ _ => trivial⟩
  split
  · exact ⟨[event], rfl, List.forall_mem_singleton.mpr own⟩
  · exact plain.refl m

theorem lookup_plain (name : String) : Obeys plain (lookup name) := by
  apply plain_of_trace
  intro m
  rw [exec_lookup]
  split <;> rfl

theorem assign_plain (name : String) (value : Value) : Obeys plain (assign name value) := by
  apply plain_of_trace
  intro m
  rw [exec_assign]
  split <;> rfl

theorem fail_plain (e : RuntimeError) : Obeys plain (fail e : Action α) := .throw trivial

theorem shown_plain (budget : Nat) (n : Node) : Obeys plain (shown budget n) := by
  unfold shown
  split
  · exact .pure _
  · exact .throw trivial

theorem unary_plain (operator : Token) (value : Value) : Obeys plain (unary operator value) := by
  unfold unary
  split
  · split
    · exact .pure _
    · exact fail_plain _
  · exact .pure _
  · exact fail_plain _

theorem binary_plain (budget : Nat) (whole : Node) (operator : Token) (left right : Value) :
    Obeys plain (binary budget whole operator left right) := by
  unfold binary
  split
  · exact fail_plain _
  split
  · exact .liftM fun _ _ => trivial
  · exact (shown_plain budget whole).bind fun _ => fail_plain _

theorem traceValue_plain (level budget : Nat) (n : Node) (value : Value) :
    Obeys plain (traceValue level budget n value) := by
  unfold traceValue
  split
  · exact (shown_plain budget n).bind fun _ => (record_plain level rfl).bind fun _ => .pure value
  · exact .pure value

theorem traceStatement_plain (level budget : Nat) (n : Node) :
    Obeys plain (traceStatement level budget n) := by
  unfold traceStatement
  split
  · exact (shown_plain budget n).bind fun _ => record_plain level rfl
  · exact .pure ()

end Action

namespace Node

open Action

theorem evaluate_plain_of_result {n : Node} (h : ∀ b, Obeys plain (n.result level b)) (budget : Nat) :
    Obeys plain (n.evaluate level budget) := by
  rw [evaluate_eq]
  split
  · exact .throw trivial
  · exact (h budget).bind fun value => traceValue_plain level _ n value

/-- Evaluating an expression traces no brackets. -/
theorem evaluate_plain (level : Nat) : ∀ (n : Node) (budget : Nat),
    Obeys plain (n.evaluate level budget)
  | .literal t, budget => by
    apply evaluate_plain_of_result
    intro _
    exact .liftM fun _ _ => trivial
  | .reference name, budget => by
    apply evaluate_plain_of_result
    intro _
    exact lookup_plain name.lexeme
  | .grouping inner, budget => by
    apply evaluate_plain_of_result
    intro b
    exact evaluate_plain level inner (b - 2)
  | .assign name value, budget => by
    apply evaluate_plain_of_result
    intro b
    exact (evaluate_plain level value _).bind fun v => (assign_plain _ v).bind fun _ =>
      (record_plain level rfl).bind fun _ => .pure v
  | .unary operator operand, budget => by
    apply evaluate_plain_of_result
    intro b
    exact (evaluate_plain level operand _).bind (unary_plain operator)
  | .binary left operator right, budget => by
    apply evaluate_plain_of_result
    intro b
    exact (evaluate_plain level left _).bind fun x => (evaluate_plain level right _).bind fun y =>
      binary_plain _ _ operator x y
  | .missing, budget | .token _, budget | .declare _ _, budget | .print _, budget
  | .expression _, budget | .block _, budget => by
    apply evaluate_plain_of_result
    intro _
    exact fail_plain _

/-- A statement that is no block traces no brackets. -/
theorem execute_plain {n : Node} (other : ∀ body, n ≠ .block body) (level budget : Nat) :
    Obeys plain (n.execute level budget) := by
  rw [execute_eq]
  split
  · exact .throw trivial
  refine (traceStatement_plain level _ n).bind fun _ => ?_
  cases n with
  | expression value => exact (evaluate_plain level value _).discard
  | print value => exact (evaluate_plain level value _).bind fun _ => plain_of_trace fun _ => rfl
  | declare name initial =>
    refine Obeys.bind ?_ fun v => (plain_of_trace fun _ => rfl).bind fun _ => record_plain level rfl
    by_cases given : initial = .missing
    · subst given
      exact .pure _
    · rw [initialValue_of_ne_missing given]
      exact evaluate_plain level initial _
  | block body => exact absurd rfl (other body)
  | _ => exact fail_plain _

end Node

/-! ### Brackets of a run -/

/-- The trace of the machine is well bracketed, with these pushes open, the latest first; and they
account for the open scopes but the global one. -/
structure Machine.Open (m : Machine) (opened : List Opening) : Prop where
  read : ∃ announced, Bracketing.ofTrace m.trace = some ⟨announced, opened⟩
  depth : m.scopes.depth = opened.length + 1

/-- Events that are no brackets leave all that is open open. -/
theorem Bracketing.foldlM_plain {events : List TraceEvent}
    (plain : ∀ e ∈ events, e.isBracket = false) (announced : Option String)
    (opened : List Opening) :
    ∃ announced', events.foldlM Bracketing.next ⟨announced, opened⟩ = some ⟨announced', opened⟩ := by
  induction events generalizing announced with
  | nil => exact ⟨announced, rfl⟩
  | cons e events ih =>
    obtain ⟨own, others⟩ := List.forall_mem_cons.mp plain
    cases e with
    | pushed _ => cases own
    | popped _ => cases own
    | _ => exact ih others _

theorem Machine.Open.of_plain {m m' : Machine} (before : m.Open opened)
    (related : plain.related m m') (depth : m'.scopes.depth = m.scopes.depth) : m'.Open opened := by
  obtain ⟨announced, read⟩ := before.read
  obtain ⟨events, trace, plain⟩ := related
  refine ⟨?_, depth.trans before.depth⟩
  rw [trace, Bracketing.ofTrace_append read]
  exact Bracketing.foldlM_plain plain announced opened

/-- Where running statements fails with a fault: in a statement that is no block itself, behind
statements that run to their ends, inside blocks that enclose it, the outermost of them first. -/
inductive FailsAt (level : Nat) (f : Fault) :
    Nat → List Node → Scopes → List Node → Node → Prop
  | here (other : ∀ body, n ≠ .block body)
    (fails : ((n.execute level budget).on scopes).1 = .error f) :
    FailsAt level f budget (n :: ns) scopes [] n
  | inside (inner : FailsAt level f (budget - 1) body scopes.push blocks n) :
    FailsAt level f budget (.block body :: ns) scopes (.block body :: blocks) n
  | later (ends : ((first.execute level budget).on scopes).1 = .ok ())
    (others : FailsAt level f budget ns ((first.execute level budget).on scopes).2.scopes blocks n) :
    FailsAt level f budget (first :: ns) scopes blocks n

theorem FailsAt.front (h : FailsAt level f budget ns scopes blocks n) (others : List Node) :
    FailsAt level f budget (ns ++ others) scopes blocks n := by
  induction h with
  | here other fails => exact .here other fails
  | inside inner _ => exact .inside inner
  | later ends _ ih => exact .later ends ih

/-- Pushes that were left open in some blocks, from a depth on. -/
structure LeftOpen (depth : Nat) (blocks : List Node) (opened : List Opening) : Prop where
  depths : opened.map (·.depth) = List.range' depth blocks.length
  shown : List.Forall₂ (fun n o => ∃ budget, n.render budget = .ok o.shown) blocks opened

theorem LeftOpen.cons {depth budget : Nat} {text : String} (left : LeftOpen (depth + 1) blocks opened)
    (rendered : n.render budget = .ok text) :
    LeftOpen depth (n :: blocks) (⟨text, depth⟩ :: opened) where
  depths := by rw [List.map_cons, left.depths, List.length_cons, List.range'_succ]
  shown := .cons ⟨budget, rendered⟩ left.shown

/-- Running statements fails in some blocks. -/
def FailsIn (level budget : Nat) (ns : List Node) (scopes : Scopes) (f : Fault)
    (blocks : List Node) : Prop :=
  ∃ n, FailsAt level f budget ns scopes blocks n

/-- How a run ends that began with some pushes open: if it gets to its end, no others are open. If an
error ends it, they are those of the blocks around the statement at which it failed. -/
structure Bracketed (opened : List Opening) (fails : Fault → List Node → Prop)
    (ran : Except Fault Unit × Machine) : Prop where
  ended : ran.1 = .ok () → ran.2.Open opened
  failed : ∀ f, ran.1 = .error f → ∃ announced more,
    Bracketing.ofTrace ran.2.trace = some ⟨announced, more ++ opened⟩ ∧
      ∀ e, f = .error e → ∃ blocks, fails f blocks ∧ LeftOpen (opened.length + 2) blocks more.reverse

theorem Bracketed.imp {fails fails' : Fault → List Node → Prop} (h : Bracketed opened fails ran)
    (blame : ∀ f blocks, fails f blocks → fails' f blocks) : Bracketed opened fails' ran where
  ended := h.ended
  failed f same := by
    obtain ⟨announced, more, read, blamed⟩ := h.failed f same
    refine ⟨announced, more, read, fun e own => ?_⟩
    obtain ⟨blocks, fails, left⟩ := blamed e own
    exact ⟨blocks, blame f blocks fails, left⟩

namespace Node

open Action

variable {level : Nat}

theorem depth_execute (n : Node) (budget : Nat) (m : Machine) :
    ((n.execute level budget).exec m).2.scopes.depth = m.scopes.depth :=
  (execute_bounded level n budget m).1.depth

theorem depth_executeAll (ns : List Node) (budget : Nat) (m : Machine) :
    ((executeAll level ns budget).exec m).2.scopes.depth = m.scopes.depth := by
  have kept := (outerNamesKept_lax.executeAll level ns budget m).1
  have same := congrArg List.length kept
  simp only [Scopes.names, Scopes.toList, List.map_cons, List.tail_cons, List.length_map] at same
  exact congrArg (· + 1) same

/-- The statement fails on its own as it does here. -/
theorem on_of_exec {n : Node} {m : Machine} (ran : (n.execute level budget).exec m = (r, m')) :
    ((n.execute level budget).on m.scopes).1 = r ∧
      ((n.execute level budget).on m.scopes).2.scopes = m'.scopes := by
  have blind : Blind (n.execute level budget) :=
    blind_closed.execute level n (allowed_anyName _) budget
  rw [blind.exec_eq] at ran
  cases ran
  exact ⟨rfl, rfl⟩

theorem plain_bracketed {n : Node} (other : ∀ body, n ≠ .block body) {m : Machine}
    (before : m.Open opened) :
    Bracketed opened (FailsIn level budget [n] m.scopes) ((n.execute level budget).exec m) := by
  have after := before.of_plain (execute_plain other level budget m).1 (depth_execute n budget m)
  refine ⟨fun _ => after, fun f failed => ?_⟩
  obtain ⟨announced, read⟩ := after.read
  refine ⟨announced, [], read, fun e _ => ⟨[], ⟨n, .here other ?_⟩, rfl, .nil⟩⟩
  exact (on_of_exec rfl).1.trans failed

variable {opened : List Opening} {text : String}

/-- The machine as the body of a block finds it, in a scope of its own. -/
def entered (level : Nat) (m : Machine) : Machine :=
  ((record level (.pushed m.scopes.push.depth)).exec { m with scopes := m.scopes.push }).2

theorem scopes_entered (m : Machine) : (entered level m).scopes = m.scopes.push := by
  rw [entered, exec_record]
  split <;> rfl

/-- A block that was announced pushes a scope. -/
theorem open_entered (loud : 2 ≤ level) {m : Machine} (depth : m.scopes.depth = opened.length + 1)
    (read : Bracketing.ofTrace m.trace = some ⟨some text, opened⟩) :
    (entered level m).Open (⟨text, opened.length + 2⟩ :: opened) := by
  have same : m.scopes.push.depth = opened.length + 2 := by rw [Scopes.depth_push, depth]
  have asked : (TraceEvent.pushed m.scopes.push.depth).level ≤ level := loud
  rw [entered, exec_record, if_pos asked]
  refine ⟨⟨none, ?_⟩, same⟩
  rw [same, Bracketing.ofTrace_append read]
  simp [Bracketing.next]

theorem open_popped (loud : 2 ≤ level) {m : Machine} (depth : m.scopes.depth = opened.length + 1)
    (read : Bracketing.ofTrace m.trace = some ⟨announced, ⟨text, opened.length + 2⟩ :: opened⟩) :
    ((record level (.popped (m.scopes.depth + 1))).exec m).2.Open opened := by
  have asked : (TraceEvent.popped (m.scopes.depth + 1)).level ≤ level := loud
  rw [exec_record, if_pos asked]
  refine ⟨⟨none, ?_⟩, depth⟩
  rw [depth, Bracketing.ofTrace_append read]
  simp [Bracketing.next]

theorem exec_traceStatement (loud : 1 ≤ level) (budget : Nat) (n : Node) (m : Machine) :
    (traceStatement level budget n).exec m =
      match n.render budget with
      | .ok text => (.ok (), { m with trace := m.trace ++ [.executed text] })
      | .error f => (.error (.ofRender f), m) := by
  rw [traceStatement, if_pos loud, exec_bind, shown]
  cases n.render budget with
  | ok text =>
    have asked : (TraceEvent.executed text).level ≤ level := loud
    simp only [exec_pure, exec_record, if_pos asked]
  | error f => rfl

/-- A block whose body has left its scope to be dropped. -/
theorem exec_block {body : Action Unit} {m inner : Machine}
    (ran : body.exec (entered level m) = (r, inner))
    (popped : inner.scopes.pop? = some (scope, outer)) : (Action.block level body).exec m =
      match r with
      | .ok () => (record level (.popped (outer.depth + 1))).exec { inner with scopes := outer }
      | .error f => (.error f, { inner with scopes := outer }) := by
  have within : (do record level (.pushed (← depth)); body : Action Unit).exec
      { m with scopes := m.scopes.push } = (r, inner) := by
    rw [entered, exec_record] at ran
    rw [exec_bind, exec_depth]
    dsimp only
    rw [exec_bind, exec_record]
    exact ran
  rw [Action.block, exec_bind, exec_within, within, popped]
  cases r with
  | error f => rfl
  | ok done =>
    dsimp only
    rw [exec_bind, exec_depth]

/-- A block that was announced pushes, and pops if its body gets to its end. -/
theorem announced_bracketed (loud : 2 ≤ level) {body : List Node} {budget b : Nat}
    (inner : ∀ m opened, m.Open opened → Bracketed opened (FailsIn level (budget - 1) body m.scopes)
      ((executeAll level body (budget - 1)).exec m)) {m : Machine}
    (read : Bracketing.ofTrace m.trace = some ⟨some text, opened⟩)
    (before : m.scopes.depth = opened.length + 1) (rendered : (block body).render b = .ok text) :
    Bracketed opened (FailsIn level budget [block body] m.scopes)
      ((Action.block level (executeAll level body (budget - 1))).exec m) := by
  have result := inner _ _ (open_entered loud before read)
  have depth := @depth_executeAll level body (budget - 1) (entered level m)
  rw [scopes_entered] at result depth
  rcases ran : (executeAll level body (budget - 1)).exec (entered level m) with ⟨r, last⟩
  rw [ran] at result depth
  obtain ⟨scope, outer, popped, left⟩ := Scopes.pop?_of_depth_push depth
  rw [exec_block ran popped]
  cases r with
  | ok done =>
    obtain ⟨announced, read⟩ := (result.ended rfl).read
    have closed := open_popped (m := { last with scopes := outer }) loud (left.trans before) read
    refine ⟨fun _ => closed, fun f failed => ?_⟩
    simp only [exec_record] at failed
    cases failed
  | error f =>
    refine ⟨nofun, fun f' same => ?_⟩
    cases same
    obtain ⟨announced, more, read, blame⟩ := result.failed f rfl
    refine ⟨announced, more ++ [⟨text, opened.length + 2⟩], ?_, fun e own => ?_⟩
    · rw [List.append_assoc]
      exact read
    · obtain ⟨blocks, ⟨n, failed⟩, open'⟩ := blame e own
      refine ⟨block body :: blocks, ⟨n, .inside failed⟩, ?_⟩
      rw [List.reverse_append]
      exact open'.cons rendered

theorem block_bracketed (loud : 2 ≤ level) {body : List Node} {budget : Nat}
    (inner : ∀ m opened, m.Open opened → Bracketed opened (FailsIn level (budget - 1) body m.scopes)
      ((executeAll level body (budget - 1)).exec m)) {m : Machine} (before : m.Open opened) :
    Bracketed opened (FailsIn level budget [block body] m.scopes)
      (((block body).execute level budget).exec m) := by
  obtain ⟨announced, read⟩ := before.read
  -- A fault of another sort than an error says nothing about where it came from.
  have stopped {f : Fault} (foreign : ∀ e, f ≠ .error e) :
      Bracketed opened (FailsIn level budget [block body] m.scopes) (.error f, m) := by
    refine ⟨nofun, fun f' same => ⟨announced, [], read, fun e own => ?_⟩⟩
    cases same
    exact absurd own (foreign e)
  rw [execute_eq]
  by_cases spent : budget = 0
  · rw [if_pos spent, exec_throw]
    exact stopped nofun
  rw [if_neg spent, exec_bind, exec_traceStatement (Nat.le_of_succ_le loud)]
  cases rendered : (block body).render (budget - 1) with
  | error f =>
    refine stopped fun e same => ?_
    cases f <;> cases same
  | ok text =>
    exact announced_bracketed (m := { m with trace := m.trace ++ [.executed text] }) loud inner
      (Bracketing.ofTrace_append read _) before.depth rendered

mutual

theorem execute_bracketed (loud : 2 ≤ level) : ∀ (n : Node) (budget : Nat) (m : Machine)
    (opened : List Opening), m.Open opened →
      Bracketed opened (FailsIn level budget [n] m.scopes) ((n.execute level budget).exec m)
  | .block body, budget, m, opened, before =>
    block_bracketed loud (executeAll_bracketed loud body (budget - 1)) before
  | .missing, budget, m, opened, before | .token _, budget, m, opened, before
  | .literal _, budget, m, opened, before | .reference _, budget, m, opened, before
  | .grouping _, budget, m, opened, before | .unary _ _, budget, m, opened, before
  | .assign _ _, budget, m, opened, before | .binary _ _ _, budget, m, opened, before
  | .print _, budget, m, opened, before | .expression _, budget, m, opened, before
  | .declare _ _, budget, m, opened, before => by
    refine plain_bracketed (fun body same => ?_) before
    cases same

theorem executeAll_bracketed (loud : 2 ≤ level) : ∀ (ns : List Node) (budget : Nat) (m : Machine)
    (opened : List Opening), m.Open opened →
      Bracketed opened (FailsIn level budget ns m.scopes) ((executeAll level ns budget).exec m)
  | [], budget, m, opened, before => by
    rw [executeAll_nil, exec_pure]
    exact ⟨fun _ => before, nofun⟩
  | n :: ns, budget, m, opened, before => by
    have first := execute_bracketed loud n budget m opened before
    rw [executeAll_cons, exec_bind]
    rcases ran : (n.execute level budget).exec m with ⟨f | done, m'⟩ <;> rw [ran] at first
    · exact first.imp fun f blocks => .imp fun at' failed => failed.front ns
    · have others := executeAll_bracketed loud ns budget m' opened (first.ended rfl)
      obtain ⟨ends, scopes⟩ := on_of_exec ran
      exact others.imp fun f blocks => .imp fun at' failed => .later ends (scopes ▸ failed)

end

end Node

end Scriptlet
