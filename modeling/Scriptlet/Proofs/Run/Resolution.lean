import Mathlib.Data.Finset.Dedup
import Mathlib.Data.Finset.Insert
import Scriptlet.Proofs.Grammar.Recognition
import Scriptlet.Proofs.Run.Frame
import Scriptlet.Proofs.Run.Names
import Scriptlet.Proofs.Run.Safety

/-! Which names a program finds bound can be told without running it. A resolver walks a program in
the order of a run and keeps nothing but the names that each scope binds. A run comes to the same
uses of names as the walk: it gets past those that the walk finds bound, unless another error ends it
before, and is stopped by the one that the walk finds unbound. -/
namespace Scriptlet

/-- The uses of names that a walk through a program gets past, in order, and the one at which it
stops because the name is not bound. -/
structure Walk where
  bound : List Token
  unbound : Option Token

namespace Walk

def nothing : Walk := ⟨[], none⟩

def use (name : Token) (isBound : Bool) : Walk := if isBound then ⟨[name], none⟩ else ⟨[], some name⟩

/-- The second walk is begun when the first is over, if that did not stop. -/
def andThen (w next : Walk) : Walk :=
  match w.unbound with
  | none => ⟨w.bound ++ next.bound, next.unbound⟩
  | some _ => w

theorem andThen_nothing (w : Walk) : w.andThen nothing = w := by
  obtain ⟨bound, _ | name⟩ := w
  · simp only [andThen, nothing, List.append_nil]
  · rfl

theorem bound_prefix_andThen (w next : Walk) : w.bound <+: (w.andThen next).bound := by
  obtain ⟨bound, _ | name⟩ := w
  · exact List.prefix_append bound next.bound
  · exact List.prefix_refl bound

end Walk

namespace Scopes

/-- The names that each scope binds, from the innermost outwards. -/
def nameSets (s : Scopes) : List (Finset String) := s.names.map List.toFinset

/-- The names that have a value are those that some scope binds. -/
theorem isSome_get? (s : Scopes) (name : String) :
    (s.get? name).isSome = s.nameSets.any (name ∈ ·) := by
  rw [Bool.eq_iff_iff, get?, List.findSome?_isSome_iff]
  simp only [Assoc.isSome_lookup, nameSets, names, List.map_map, List.any_map, List.any_eq_true,
    Function.comp_apply, List.mem_toFinset, decide_eq_true_eq]

theorem nameSets_eq_cons (s : Scopes) : s.nameSets =
    (Assoc.keys s.innermost).toFinset :: s.names.tail.map List.toFinset := rfl

end Scopes

namespace Node

/-- Looks for the names in an expression. -/
def resolveValue (names : List (Finset String)) : Node → Walk
  | reference name => .use name (names.any (name.lexeme ∈ ·))
  | grouping inner => inner.resolveValue names
  | assign name value => (value.resolveValue names).andThen (.use name (names.any (name.lexeme ∈ ·)))
  | unary _ operand => operand.resolveValue names
  | binary left _ right => (left.resolveValue names).andThen (right.resolveValue names)
  | _ => .nothing

mutual

/-- Looks for the names in a statement; the names that are bound behind it come with the walk. -/
def resolve (names : List (Finset String)) : Node → Walk × List (Finset String)
  | expression value | print value => (value.resolveValue names, names)
  | declare name initial => (initial.resolveValue names, names.modifyHead (insert name.lexeme))
  | block statements => ((resolveAll (∅ :: names) statements).1, names)
  | _ => (.nothing, names)

def resolveAll (names : List (Finset String)) : List Node → Walk × List (Finset String)
  | [] => (.nothing, names)
  | n :: ns =>
    let first := n.resolve names
    let others := resolveAll first.2 ns
    (first.1.andThen others.1, others.2)

end

end Node

/-- The walk of what follows an action, if the action gets to its end. -/
def Action.walkBehind (a : Action α) (m : Machine) (next : α → Machine → Walk) : Walk :=
  match a.exec m with
  | (.ok x, m) => next x m
  | (.error _, _) => .nothing

/-- What a block does on entry, in the scope that it opened. -/
def Action.enter (level : Nat) : Action Unit := do record level (.pushed (← depth))

namespace Node

/-- The uses of names to which the evaluation of an expression comes. -/
def metValue (level : Nat) (n : Node) (budget : Nat) (m : Machine) : Walk :=
  if budget = 0 then .nothing
  else
    match n with
    | reference name => .use name (m.scopes.get? name.lexeme).isSome
    | grouping inner => inner.metValue level (budget - 2) m
    | assign name value =>
      (value.metValue level (budget - 2) m).andThen
        ((value.evaluate level (budget - 2)).walkBehind m fun v m =>
          .use name (m.scopes.assign? name.lexeme v).isSome)
    | unary _ operand => operand.metValue level (budget - 3) m
    | binary left _ right =>
      (left.metValue level (budget - 3) m).andThen
        ((left.evaluate level (budget - 3)).walkBehind m fun _ m =>
          right.metValue level (budget - 3) m)
    | _ => .nothing

mutual

/-- The uses of names to which the execution of a statement comes. -/
def met (level : Nat) (n : Node) (budget : Nat) (m : Machine) : Walk :=
  if budget = 0 then .nothing
  else
    (Action.traceStatement level (budget - 1) n).walkBehind m fun _ m =>
      match n with
      | expression value | print value => value.metValue level (budget - 1) m
      | declare _ initial => initial.metValue level (budget - 1) m
      | block statements =>
        (Action.enter level).walkBehind { m with scopes := m.scopes.push } fun _ m =>
          metAll level statements (budget - 1) m
      | _ => .nothing

def metAll (level : Nat) (ns : List Node) (budget : Nat) (m : Machine) : Walk :=
  match ns with
  | [] => .nothing
  | n :: ns =>
    (n.met level budget m).andThen
      ((n.execute level budget).walkBehind m fun _ m => metAll level ns budget m)

end

end Node

/-- How a run that comes to some uses of names goes with a walk and with the way in which it ends. -/
inductive Follows (w : Walk) : Walk → Except Fault α → Prop where
  /-- It gets past all uses. -/
  | ends (bound : w.unbound = none) (x : α) : Follows w w (.ok x)
  /-- It is stopped where the walk is, by the same use. -/
  | lost (unbound : w.unbound = some t) : Follows w w (.error (.error (.undefinedVariable t.lexeme)))
  /-- Before that another fault ends it. -/
  | stops (early : met <+: w.bound) (other : f.unbound? = none) : Follows w ⟨met, none⟩ (.error f)

open Scriptlet.Action (Law Obeys)

theorem Action.walkBehind_nothing (a : Action α) (m : Machine) :
    (a.walkBehind m fun _ _ => .nothing) = .nothing := by
  unfold walkBehind
  split <;> rfl

/-- No unbound name ends a run. -/
def quiet : Law where
  related _ _ := True
  refl _ := trivial
  trans _ _ := trivial
  fault f := f.unbound? = none

theorem within_quiet {body : Action α} (h : Obeys quiet body) : Obeys quiet (Action.within body) := by
  intro m
  rw [Action.exec_within]
  split
  · exact ⟨trivial, (h _).2⟩
  · exact ⟨trivial, Outcome.FailsOnly.error rfl⟩

theorem record_quiet (level : Nat) (event : TraceEvent) : Obeys quiet (Action.record level event) := by
  intro m
  rw [Action.exec_record]
  exact ⟨trivial, Outcome.FailsOnly.ok ()⟩

theorem depth_quiet : Obeys quiet Action.depth := fun _ => ⟨trivial, Outcome.FailsOnly.ok _⟩

theorem enter_quiet (level : Nat) : Obeys quiet (Action.enter level) :=
  depth_quiet.bind fun d => record_quiet level (.pushed d)

/-- Names may be declared in a quiet run, but not used. -/
theorem quiet_closed : Action.ClosedOnStatements (fun role _ => role = .declare)
    (fun {_} a => Obeys quiet a) where
  pure := .pure
  throw bound := .throw bound
  bind := .bind
  lookup allowed := by cases allowed
  assign allowed := by cases allowed
  record := record_quiet
  print _ _ := ⟨trivial, Outcome.FailsOnly.ok _⟩
  define _ _ _ := ⟨trivial, Outcome.FailsOnly.ok _⟩
  block h level := (within_quiet ((enter_quiet level).bind fun _ => h)).bind fun _ =>
    depth_quiet.bind fun d => record_quiet level (.popped (d + 1))

namespace Follows

variable {m : Machine} {a : Action α} {f : α → Action β} {w w' v v' : Walk}

/-- Behind a walk that was not stopped. -/
theorem behind {outcome : Except Fault α} (past : w.unbound = none) (h : Follows w' v' outcome) :
    Follows (w.andThen w') (w.andThen v') outcome := by
  have joined : ∀ u, w.andThen u = ⟨w.bound ++ u.bound, u.unbound⟩ := by
    intro u
    simp only [Walk.andThen, past]
  cases h with
  | ends bound x => exact .ends ((congrArg Walk.unbound (joined w')).trans bound) x
  | lost unbound => exact .lost ((congrArg Walk.unbound (joined w')).trans unbound)
  | stops early other =>
    rw [joined, joined]
    exact .stops ((List.prefix_append_right_inj _).mpr early) other

/-- What would be done next does not matter to a run that does not come to it. -/
theorem before (h : Follows w v (.error e : Except Fault α)) (w' : Walk) :
    Follows (w.andThen w') v (.error e : Except Fault β) := by
  cases h with
  | lost unbound =>
    have stopped : w.andThen w' = w := by simp only [Walk.andThen, unbound]
    rw [stopped]
    exact .lost unbound
  | stops early other => exact .stops (early.trans (w.bound_prefix_andThen w')) other

theorem bind {next : α → Machine → Walk} (first : Follows w v (a.exec m).1)
    (others : ∀ x m', a.exec m = (.ok x, m') → Follows w' (next x m') ((f x).exec m').1) :
    Follows (w.andThen w') (v.andThen (a.walkBehind m next)) ((a >>= f).exec m).1 := by
  rw [Action.exec_bind]
  unfold Action.walkBehind
  rcases run : a.exec m with ⟨e | x, m'⟩ <;> rw [run] at first
  · simp only
    rw [Walk.andThen_nothing]
    exact first.before w'
  · cases first with
    | ends bound _ => exact (others x m' run).behind bound

/-- A run of an action that uses no names. -/
theorem of_quiet (h : Obeys quiet a) (m : Machine) : Follows .nothing .nothing (a.exec m).1 := by
  obtain ⟨_, allowed⟩ := h m
  rcases run : a.exec m with ⟨e | x, m'⟩ <;> rw [run] at allowed
  · exact .stops (List.prefix_refl []) (allowed e rfl)
  · exact .ends rfl x

theorem bind_quiet (first : Follows w v (a.exec m).1) (others : ∀ x, Obeys quiet (f x)) :
    Follows w v ((a >>= f).exec m).1 := by
  have both := first.bind fun x m' _ => of_quiet (others x) m'
  rw [Action.walkBehind_nothing, Walk.andThen_nothing, Walk.andThen_nothing] at both
  exact both

theorem quiet_bind {next : α → Machine → Walk} (first : Obeys quiet a)
    (others : ∀ x m', a.exec m = (.ok x, m') → Follows w (next x m') ((f x).exec m').1) :
    Follows w (a.walkBehind m next) ((a >>= f).exec m).1 := (of_quiet first m).bind others

/-- A name is looked for in all scopes. -/
theorem lookup (name : Token) (m : Machine) :
    Follows (.use name (m.scopes.nameSets.any (name.lexeme ∈ ·)))
      (.use name (m.scopes.get? name.lexeme).isSome) ((Action.lookup name.lexeme).exec m).1 := by
  rw [Action.exec_lookup, ← Scopes.isSome_get?]
  cases m.scopes.get? name.lexeme with
  | some value => exact .ends rfl value
  | none => exact .lost rfl

theorem reassign (level : Nat) (name : Token) (value : Value) (m : Machine) :
    Follows (.use name (m.scopes.nameSets.any (name.lexeme ∈ ·)))
      (.use name (m.scopes.assign? name.lexeme value).isSome)
      ((Action.reassign level name value).exec m).1 := by
  refine bind_quiet ?_ fun _ => (record_quiet level _).bind fun _ => .pure value
  rw [Action.exec_assign, ← Scopes.isSome_get?, ← Scopes.isSome_assign? _ _ value]
  cases m.scopes.assign? name.lexeme value with
  | some scopes => exact .ends rfl ()
  | none => exact .lost rfl

end Follows

theorem enter_namesKept (level : Nat) : Obeys namesKept (Action.enter level) :=
  namesKept_lenient.depth.bind fun d => namesKept_lenient.record level (.pushed d)

/-- An action that keeps the names leaves the resolver where it was. -/
theorem nameSets_after {a : Action α} {m m' : Machine} (kept : Obeys namesKept a)
    (ran : a.exec m = (.ok x, m')) : m'.scopes.nameSets = m.scopes.nameSets := by
  have same := (kept m).1
  rw [ran] at same
  exact congrArg (·.map List.toFinset) same

namespace Node

/-- What every step of an evaluation does besides uses no names. -/
theorem follows_of_result {n : Node} (h : Follows w v ((n.result level budget).exec m).1) :
    Follows w (if budget = 0 then .nothing else v) ((n.evaluate level budget).exec m).1 := by
  rw [evaluate_eq]
  split
  · exact .stops List.nil_prefix rfl
  · exact h.bind_quiet fun value => quiet_closed.traceValue level (budget - 1) n value

/-- Evaluating a tree follows the walk through it, whatever the names are bound to. -/
theorem follows_evaluate (level : Nat) : ∀ (n : Node) (budget : Nat) (m : Machine),
    Follows (n.resolveValue m.scopes.nameSets) (n.metValue level budget m)
      ((n.evaluate level budget).exec m).1
  | literal t, budget, m => by
    rw [metValue.eq_def]
    exact follows_of_result (.of_quiet (quiet_closed.liftM t.value_bound) m)
  | reference name, budget, m => by
    rw [metValue.eq_def]
    exact follows_of_result (.lookup name m)
  | grouping inner, budget, m => by
    rw [metValue.eq_def]
    exact follows_of_result (follows_evaluate level inner (budget - 2) m)
  | assign name value, budget, m => by
    rw [metValue.eq_def]
    refine follows_of_result ((follows_evaluate level value (budget - 2) m).bind ?_)
    -- The value binds nothing, so the resolver still has the names that are bound.
    intro v m' ran
    have kept := nameSets_after (namesKept_lenient.evaluate level value (budget - 2)) ran
    rw [← kept]
    exact .reassign level name v m'
  | unary operator operand, budget, m => by
    rw [metValue.eq_def]
    exact follows_of_result
      ((follows_evaluate level operand (budget - 3) m).bind_quiet (quiet_closed.unary operator))
  | binary left operator right, budget, m => by
    rw [metValue.eq_def]
    refine follows_of_result ((follows_evaluate level left (budget - 3) m).bind ?_)
    intro x m' ran
    have kept := nameSets_after (namesKept_lenient.evaluate level left (budget - 3)) ran
    rw [← kept]
    exact (follows_evaluate level right (budget - 3) m').bind_quiet
      (quiet_closed.binary (budget - 3) _ operator x)
  | missing, budget, m | token _, budget, m | declare _ _, budget, m | print _, budget, m
  | expression _, budget, m | block _, budget, m => by
    rw [metValue.eq_def]
    exact follows_of_result (.of_quiet (quiet_closed.fail rfl) m)

theorem follows_initialValue (level : Nat) (n : Node) (budget : Nat) (m : Machine) :
    Follows (n.resolveValue m.scopes.nameSets) (n.metValue level budget m)
      ((n.initialValue level budget).exec m).1 := by
  by_cases given : n = .missing
  · subst given
    have met : metValue level .missing budget m = .nothing := by
      rw [metValue.eq_def]
      exact ite_self _
    rw [met]
    exact .of_quiet (.pure _) m
  · rw [initialValue_of_ne_missing given]
    exact follows_evaluate level n budget m

theorem follows_of_effect {n : Node} {met : Machine → Walk}
    (h : ∀ m', m'.scopes.nameSets = m.scopes.nameSets →
      Follows w (met m') ((n.effect level budget).exec m').1) :
    Follows w (if budget = 0 then .nothing
        else (Action.traceStatement level (budget - 1) n).walkBehind m fun _ m => met m)
      ((n.execute level budget).exec m).1 := by
  rw [execute_eq]
  split
  · exact .stops List.nil_prefix rfl
  · refine .quiet_bind (quiet_closed.traceStatement level (budget - 1) n) ?_
    intro _ m' ran
    have kept := namesKept_lenient.closed.traceStatement level (budget - 1) n
    exact h m' (nameSets_after kept ran)

/-- A block is walked through behind a scope without names. -/
theorem follows_block {body : Action Unit} {met : Machine → Walk}
    (kept : Obeys outerNamesKept body)
    (h : ∀ m', m'.scopes.nameSets = ∅ :: m.scopes.nameSets →
      Follows w (met m') (body.exec m').1) (level : Nat) :
    Follows w ((Action.enter level).walkBehind { m with scopes := m.scopes.push } fun _ m => met m)
      ((Action.block level body).exec m).1 := by
  have entered : Follows w
      ((Action.enter level).walkBehind { m with scopes := m.scopes.push } fun _ m => met m)
      ((Action.enter level >>= fun _ => body).exec { m with scopes := m.scopes.push }).1 := by
    refine .quiet_bind (enter_quiet level) ?_
    intro _ m' ran
    exact h m' (nameSets_after (enter_namesKept level) ran)
  refine .bind_quiet ?_ fun _ => depth_quiet.bind fun d => record_quiet level _
  obtain ⟨left, _⟩ := outerNamesKept_lenient.entered kept level { m with scopes := m.scopes.push }
  obtain ⟨scope, outer, popped, _⟩ := Scopes.names_pop? left
  rw [Action.exec_within, popped]
  rw [Action.enter, bind_assoc] at entered
  exact entered

/-- The resolver knows the names that are bound behind a statement. -/
theorem nameSets_execute (ran : (execute level n budget).exec m = (.ok (), m')) :
    m'.scopes.nameSets = (n.resolve m.scopes.nameSets).2 := by
  cases declared : n.declared? with
  | none =>
    rw [nameSets_after (execute_namesKept declared level budget) ran]
    cases n with
    | declare token initial => cases declared
    | _ => rfl
  | some own =>
    cases n with
    | declare token initial =>
      -- The name is new in the innermost scope, if it is new at all; the others are as they were.
      have own := names_declare level token initial budget m
      have outer := (outerNamesKept_lax.execute level (.declare token initial) budget m).1
      rw [ran] at own outer
      rw [resolve, Scopes.nameSets_eq_cons, Scopes.nameSets_eq_cons, List.modifyHead_cons]
      refine congrArg₂ List.cons ?_ (congrArg (·.map List.toFinset) outer)
      ext name
      rw [Finset.mem_insert, List.mem_toFinset, List.mem_toFinset, own name]
      simp only [and_true, eq_comm, or_comm]
    | _ => cases declared

mutual

theorem follows_execute (level : Nat) : ∀ (n : Node) (budget : Nat) (m : Machine),
    Follows (n.resolve m.scopes.nameSets).1 (n.met level budget m)
      ((n.execute level budget).exec m).1
  | expression value, budget, m => by
    rw [met.eq_def]
    refine follows_of_effect ?_
    intro m' kept
    rw [resolve, ← kept, effect, Action.discard_eq]
    exact (follows_evaluate level value (budget - 1) m').bind_quiet fun _ => .pure ()
  | print value, budget, m => by
    rw [met.eq_def]
    refine follows_of_effect ?_
    intro m' kept
    rw [resolve, ← kept]
    exact (follows_evaluate level value (budget - 1) m').bind_quiet fun v =>
      quiet_closed.print v.display
  | declare name initial, budget, m => by
    rw [met.eq_def]
    refine follows_of_effect ?_
    intro m' kept
    rw [resolve, ← kept]
    exact (follows_initialValue level initial (budget - 1) m').bind_quiet
      (quiet_closed.declare level rfl)
  | block statements, budget, m => by
    rw [met.eq_def]
    refine follows_of_effect ?_
    intro m' kept
    have body := outerNamesKept_lax.executeAll level statements (budget - 1)
    refine follows_block body ?_ level
    intro m'' entered
    rw [resolve, ← kept, ← entered]
    exact follows_executeAll level statements (budget - 1) m''
  | missing, budget, m | token _, budget, m | literal _, budget, m | reference _, budget, m
  | grouping _, budget, m | assign _ _, budget, m | unary _ _, budget, m
  | binary _ _ _, budget, m => by
    rw [met.eq_def]
    exact follows_of_effect fun m' _ => .of_quiet (quiet_closed.fail rfl) m'

theorem follows_executeAll (level : Nat) : ∀ (ns : List Node) (budget : Nat) (m : Machine),
    Follows (resolveAll m.scopes.nameSets ns).1 (metAll level ns budget m)
      ((executeAll level ns budget).exec m).1
  | [], budget, m => by
    rw [executeAll_nil]
    exact .of_quiet (.pure ()) m
  | n :: ns, budget, m => by
    rw [executeAll_cons, metAll, resolveAll]
    refine (follows_execute level n budget m).bind ?_
    intro _ m' ran
    rw [← nameSets_execute ran]
    exact follows_executeAll level ns budget m'

end

theorem nameSets_executeAll (ran : (executeAll level ns budget).exec m = (.ok (), m')) :
    m'.scopes.nameSets = (resolveAll m.scopes.nameSets ns).2 := by
  induction ns generalizing m with
  | nil =>
    rw [executeAll_nil] at ran
    cases ran
    rfl
  | cons n ns ih =>
    rw [executeAll_cons] at ran
    obtain ⟨⟨⟩, _, step, ran⟩ := Action.exec_bind_ok ran
    rw [resolveAll, ← nameSets_execute step]
    exact ih ran

end Node

/-- Too much nesting is an error too, and not that of an unbound name. -/
theorem follows_interpret (level : Nat) (ns : List Node) (m : Machine) :
    Follows (Node.resolveAll m.scopes.nameSets ns).1 (Node.metAll level ns nestingLimit m)
      ((interpret level ns).exec m).1 := by
  have followed := Node.follows_executeAll level ns nestingLimit m
  rw [exec_interpret]
  rcases ended : (Node.executeAll level ns nestingLimit).exec m with ⟨f | ⟨⟩, m'⟩ <;>
    rw [ended] at followed
  · cases f with
    | tooDeep =>
      generalize Node.metAll level ns nestingLimit m = met at followed
      cases followed with
      | stops early _ => exact .stops early rfl
    | _ => exact followed
  · exact followed

namespace Follows

variable {w v : Walk} {outcome : Except Fault α}

theorem not_undefined (h : Follows w v outcome) (accepts : w.unbound = none) (name : String) :
    outcome ≠ .error (.error (.undefinedVariable name)) := by
  rintro rfl
  cases h with
  | lost unbound => cases accepts.symm.trans unbound
  | stops _ other => cases other

theorem of_unbound (h : Follows w v outcome) (rejects : w.unbound = some t) :
    ∃ f, outcome = .error f ∧ (f = .error (.undefinedVariable t.lexeme) ∧ v = w ∨
      f.unbound? = none ∧ ∃ early, early <+: w.bound ∧ v = ⟨early, none⟩) := by
  cases h with
  | ends bound x => cases rejects.symm.trans bound
  | lost unbound =>
    cases rejects.symm.trans unbound
    exact ⟨_, rfl, .inl ⟨rfl, rfl⟩⟩
  | stops early other => exact ⟨_, rfl, .inr ⟨other, _, early, rfl⟩⟩

end Follows

/-- Of a program that was read, the resolver tells the names that are found. If it accepts, no run ends
for want of a name. If it rejects, every run ends in an error: for want of the same name at the same
place, or of another sort and before. When a run gets to its end, the resolver knows the names that
are bound then. -/
theorem interpret_resolved {s : TokenStream} {level : Nat} {scopes : Scopes}
    (resolved : Node.resolveAll scopes.nameSets (Program.ofStream s).statements = (walk, names))
    (ran : (interpret level (Program.ofStream s).statements).on scopes = (outcome, m)) :
    (walk.unbound = none → ∀ name, outcome ≠ .error (.error (.undefinedVariable name))) ∧
      (∀ t, walk.unbound = some t → ∃ f, outcome = .error f ∧
        (Numerals s.body → ∃ e, f = .error e) ∧
        (f = .error (.undefinedVariable t.lexeme) ∧
            Node.metAll level (Program.ofStream s).statements nestingLimit (.start scopes) = walk ∨
          f.unbound? = none ∧ ∃ early, early <+: walk.bound ∧
            Node.metAll level (Program.ofStream s).statements nestingLimit (.start scopes) =
              ⟨early, none⟩)) ∧
      (outcome = .ok () → m.scopes.nameSets = names) := by
  have derived : Grammar.Declarations (fun us => us ≠ []) s.body (Program.ofStream s).statements :=
    Grammar.recovered_derives fun _ _ => id
  have ends : (interpret level (Program.ofStream s).statements).exec (.start scopes) =
    (outcome, m) := ran
  have followed : Follows walk
      (Node.metAll level (Program.ofStream s).statements nestingLimit (.start scopes)) outcome := by
    have run := follows_interpret level (Program.ofStream s).statements (.start scopes)
    have begun : (Machine.start scopes).scopes = scopes := rfl
    rw [begun, resolved, ends] at run
    exact run
  refine ⟨followed.not_undefined, ?_, ?_⟩
  · intro t rejects
    obtain ⟨f, failed, met⟩ := followed.of_unbound rejects
    refine ⟨f, failed, ?_, met⟩
    intro numerals
    obtain ⟨_, allowed⟩ := interpret_safe (derived.safe numerals level) (.start scopes)
    obtain ⟨e, same, _⟩ := allowed f ((congrArg (·.1) ends).trans failed)
    exact ⟨e, same⟩
  · rintro rfl
    have known := Node.nameSets_executeAll (exec_interpret_eq_ok.mp ends)
    exact known.trans (congrArg (·.2) resolved)

/-- The program `{ var a = nil; a = nil; } print a;` -/
def outOfScope : List Token :=
  [⟨.symbol .leftBrace, "\x7b", 1⟩, ⟨.keyword .var, "var", 1⟩, ⟨.identifier, "a", 1⟩,
    ⟨.symbol .equal, "=", 1⟩, ⟨.keyword .nil, "nil", 1⟩, ⟨.symbol .semicolon, ";", 1⟩,
    ⟨.identifier, "a", 1⟩, ⟨.symbol .equal, "=", 1⟩, ⟨.keyword .nil, "nil", 1⟩,
    ⟨.symbol .semicolon, ";", 1⟩, ⟨.symbol .rightBrace, "\x7d", 1⟩, ⟨.keyword .print, "print", 2⟩,
    ⟨.identifier, "a", 2⟩, ⟨.symbol .semicolon, ";", 2⟩]

/-- The walk through it: the name is found inside the block, and not behind. -/
def outOfScopeWalk : Walk := ⟨[⟨.identifier, "a", 1⟩], some ⟨.identifier, "a", 2⟩⟩

theorem outOfScope_lost : ∃ s,
    TokenStream.ofTokens? (outOfScope ++ [⟨.endOfInput, "", 2⟩]) = some s ∧
      Node.resolveAll Scopes.initial.nameSets (Program.ofStream s).statements =
        (outOfScopeWalk, [∅]) ∧
      ((interpret 0 (Program.ofStream s).statements).on .initial).1 =
        .error (.error (.undefinedVariable "a")) ∧
      Node.metAll 0 (Program.ofStream s).statements nestingLimit (.start .initial) =
        outOfScopeWalk := by
  obtain ⟨s, given⟩ : ∃ s, TokenStream.ofTokens? (outOfScope ++ [⟨.endOfInput, "", 2⟩]) = some s :=
    ⟨_, rfl⟩
  have resolved : Node.resolveAll Scopes.initial.nameSets (Program.ofStream s).statements =
      (outOfScopeWalk, [∅]) := by
    cases given
    rfl
  have lost : ((interpret 0 (Program.ofStream s).statements).on .initial).1 =
      .error (.error (.undefinedVariable "a")) := by
    cases given
    rfl
  have ran : (interpret 0 (Program.ofStream s).statements).on .initial =
    (.error (.error (.undefinedVariable "a")), ((interpret 0 (Program.ofStream s).statements).on
      .initial).2) := Prod.ext lost rfl
  obtain ⟨f, failed, _, ⟨_, met⟩ | ⟨other, _⟩⟩ := (interpret_resolved resolved ran).2.1 _ rfl
  · exact ⟨s, given, resolved, lost, met⟩
  · cases failed
    cases other

end Scriptlet
