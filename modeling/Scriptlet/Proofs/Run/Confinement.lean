import Scriptlet.Proofs.Run.Closure
import Scriptlet.Proofs.Scopes.Bindings

/-! Names that a program does not mention have no part in it. On two stacks of scopes that bind alike
the names it mentions, a program does the same, and it leaves every other binding alone, however it
ends. -/
namespace Scriptlet

/-- There are as many scopes in the one stack as in the other, and each binds the names of a sort like
the one at its place: the same of them, to the same values. -/
structure Scopes.AgreeOn (own : String → Prop) (s s' : Scopes) : Prop where
  depth : s.depth = s'.depth
  bindings {name : String} (named : own name) : s.bindings name = s'.bindings name

namespace Scopes.AgreeOn

variable {own : String → Prop} {s s' s'' : Scopes}

theorem refl (own : String → Prop) (s : Scopes) : AgreeOn own s s := ⟨rfl, fun _ => rfl⟩

theorem trans (first : AgreeOn own s s') (second : AgreeOn own s' s'') : AgreeOn own s s'' :=
  ⟨first.depth.trans second.depth,
    fun named => (first.bindings named).trans (second.bindings named)⟩

theorem get? (h : AgreeOn own s s') (named : own name) : s.get? name = s'.get? name := by
  rw [get?_eq_findSome?, get?_eq_findSome?, h.bindings named]

theorem define (h : AgreeOn own s s') (name : String) (value : Value) :
    AgreeOn own (s.define name value) (s'.define name value) where
  depth := h.depth
  bindings {other} named := by
    by_cases same : other = name
    · rw [same, bindings_define_self, bindings_define_self, h.bindings (same ▸ named)]
    · rw [bindings_define_of_ne same, bindings_define_of_ne same, h.bindings named]

/-- A name of the sort is assigned to in both stacks or in neither. -/
theorem assign? (h : AgreeOn own s s') (named : own name) (value : Value) :
    (s.assign? name value = none ∧ s'.assign? name value = none) ∨
      ∃ t t', s.assign? name value = some t ∧ s'.assign? name value = some t' ∧ AgreeOn own t t' := by
  have changed : (s.assign? name value).map (·.bindings name) =
      (s'.assign? name value).map (·.bindings name) := by
    rw [bindings_assign?, bindings_assign?, h.bindings named]
  rcases assigned : s.assign? name value with _ | t <;>
    rcases assigned' : s'.assign? name value with _ | t' <;> rw [assigned, assigned'] at changed
  · exact .inl ⟨rfl, rfl⟩
  · cases changed
  · cases changed
  · refine .inr ⟨t, t', rfl, rfl, ?_, ?_⟩
    · rw [depth_assign? assigned, depth_assign? assigned', h.depth]
    · intro other named
      by_cases same : other = name
      · exact same ▸ Option.some.inj changed
      · rw [bindings_assign?_of_ne same assigned, bindings_assign?_of_ne same assigned',
          h.bindings named]

theorem push (h : AgreeOn own s s') : AgreeOn own s.push s'.push where
  depth := by rw [depth_push, depth_push, h.depth]
  bindings named := by rw [bindings_push, bindings_push, h.bindings named]

theorem pop? (h : AgreeOn own s s') (popped : s.pop? = some (scope, t))
    (popped' : s'.pop? = some (scope', t')) : AgreeOn own t t' where
  depth := by
    have both := h.depth
    rw [depth_pop? popped, depth_pop? popped'] at both
    exact Nat.succ.inj both
  bindings {name} named := by
    have both := h.bindings named
    rw [bindings_pop? popped, bindings_pop? popped'] at both
    exact (List.cons.inj both).2

/-- Binding a name of another sort makes no difference. -/
theorem of_define (foreign : ¬ own name) (s : Scopes) (value : Value) :
    AgreeOn own s (s.define name value) where
  depth := rfl
  bindings {other} named := by
    have ne : other ≠ name := fun same => foreign (same ▸ named)
    exact (bindings_define_of_ne ne s value).symm

theorem of_assign? (foreign : ¬ own name) (assigned : s.assign? name value = some s') :
    AgreeOn own s s' where
  depth := (depth_assign? assigned).symm
  bindings {other} named := by
    have ne : other ≠ name := fun same => foreign (same ▸ named)
    exact (bindings_assign?_of_ne ne assigned).symm

end Scopes.AgreeOn

/-- Two machines have written the same and bind the names of a sort alike. -/
structure Machine.Alike (own : String → Prop) (m m' : Machine) : Prop where
  scopes : m.scopes.AgreeOn own m'.scopes
  output : m.output = m'.output
  trace : m.trace = m'.trace

namespace Action

open Machine (Alike)

variable {own : String → Prop}

/-- The action does the same on machines that bind the names of a sort alike, and has no part in any
other name. -/
structure Confined (own : String → Prop) (a : Action α) : Prop where
  alike {m m' : Machine} (h : Alike own m m') :
    (a.exec m).1 = (a.exec m').1 ∧ Alike own (a.exec m).2 (a.exec m').2
  apart (m : Machine) : m.scopes.AgreeOn (fun name => ¬ own name) (a.exec m).2.scopes

namespace Confined

theorem pure (x : α) : Confined own (pure x : Action α) where
  alike h := ⟨rfl, h⟩
  apart m := .refl _ m.scopes

theorem throw (f : Fault) : Confined own (throw f : Action α) where
  alike h := ⟨rfl, h⟩
  apart m := .refl _ m.scopes

theorem bind {a : Action α} {f : α → Action β} (first : Confined own a)
    (next : ∀ x, Confined own (f x)) : Confined own (a >>= f) where
  alike {m m'} h := by
    obtain ⟨same, left⟩ := first.alike h
    rw [exec_bind, exec_bind]
    rcases run : a.exec m with ⟨e | x, n⟩ <;> rcases run' : a.exec m' with ⟨e' | x', n'⟩ <;>
      rw [run, run'] at same left <;> cases same
    · exact ⟨rfl, left⟩
    · exact (next x).alike left
  apart m := by
    have kept := first.apart m
    rw [exec_bind]
    rcases run : a.exec m with ⟨e | x, n⟩ <;> rw [run] at kept
    · exact kept
    · exact kept.trans ((next x).apart n)

theorem tryCatch {a : Action α} {handle : Fault → Action α} (first : Confined own a)
    (next : ∀ f, Confined own (handle f)) : Confined own (tryCatch a handle) where
  alike {m m'} h := by
    obtain ⟨same, left⟩ := first.alike h
    rw [exec_tryCatch, exec_tryCatch]
    rcases run : a.exec m with ⟨e | x, n⟩ <;> rcases run' : a.exec m' with ⟨e' | x', n'⟩ <;>
      rw [run, run'] at same left <;> cases same
    · exact (next e).alike left
    · exact ⟨rfl, left⟩
  apart m := by
    have kept := first.apart m
    rw [exec_tryCatch]
    rcases run : a.exec m with ⟨e | x, n⟩ <;> rw [run] at kept
    · exact kept.trans ((next e).apart n)
    · exact kept

theorem lookup (named : own name) : Confined own (lookup name) where
  alike {m m'} h := by
    rw [exec_lookup, exec_lookup, ← h.scopes.get? named]
    split <;> exact ⟨rfl, h⟩
  apart m := by
    rw [exec_lookup]
    split <;> exact .refl _ m.scopes

theorem assign (named : own name) (value : Value) : Confined own (assign name value) where
  alike {m m'} h := by
    rw [exec_assign, exec_assign]
    rcases h.scopes.assign? named value with ⟨lost, lost'⟩ | ⟨s, s', found, found', agree⟩
    · rw [lost, lost']
      exact ⟨rfl, h⟩
    · rw [found, found']
      exact ⟨rfl, agree, h.output, h.trace⟩
  apart m := by
    rw [exec_assign]
    split
    next assigned => exact .of_assign? (fun foreign => foreign named) assigned
    next => exact .refl _ m.scopes

theorem define (named : own name) (value : Value) : Confined own (define name value) where
  alike h := ⟨rfl, h.scopes.define name value, h.output, h.trace⟩
  apart m := .of_define (fun foreign => foreign named) m.scopes value

theorem print (line : String) : Confined own (print line) where
  alike h := ⟨rfl, h.scopes, congrArg (· ++ line ++ "\n") h.output, h.trace⟩
  apart m := .refl _ m.scopes

theorem record (level : Nat) (event : TraceEvent) : Confined own (record level event) where
  alike h := by
    rw [exec_record, exec_record]
    split
    · exact ⟨rfl, h.scopes, h.output, congrArg (· ++ [event]) h.trace⟩
    · exact ⟨rfl, h⟩
  apart m := by
    rw [exec_record]
    split <;> exact .refl _ m.scopes

theorem depth : Confined own depth where
  alike h := ⟨congrArg Except.ok h.scopes.depth, h⟩
  apart m := .refl _ m.scopes

/-- A body has its own scope to drop, and what lies below it was not its own. -/
theorem within {body : Action α} (confined : Confined own body) : Confined own (within body) := by
  have ends : ∀ m : Machine, ∃ scope t,
      (body.exec { m with scopes := m.scopes.push }).2.scopes.pop? = some (scope, t) := by
    intro m
    have kept := (confined.apart { m with scopes := m.scopes.push }).depth
    obtain ⟨scope, t, popped, _⟩ := Scopes.pop?_of_depth_push kept.symm
    exact ⟨scope, t, popped⟩
  constructor
  · intro m m' h
    obtain ⟨scope, t, popped⟩ := ends m
    obtain ⟨scope', t', popped'⟩ := ends m'
    have pushed : Alike own { m with scopes := m.scopes.push }
        { m' with scopes := m'.scopes.push } := ⟨h.scopes.push, h.output, h.trace⟩
    obtain ⟨same, left⟩ := confined.alike pushed
    rw [exec_within, exec_within, popped, popped']
    exact ⟨same, left.scopes.pop? popped popped', left.output, left.trace⟩
  · intro m
    obtain ⟨scope, t, popped⟩ := ends m
    rw [exec_within, popped]
    exact (confined.apart { m with scopes := m.scopes.push }).pop? m.scopes.pop?_push popped

theorem block {body : Action Unit} (confined : Confined own body) (level : Nat) :
    Confined own (block level body) := by
  have inner := depth.bind fun d => (record level (.pushed d)).bind fun _ => confined
  exact (within inner).bind fun _ => depth.bind fun d => record level (.popped (d + 1))

theorem closed (own : String → Prop) :
    ClosedOnStatements (fun _ => own) (fun {_} a => Confined own a) where
  pure := .pure
  throw _ := .throw _
  bind := .bind
  lookup := .lookup
  assign := .assign
  record := .record
  print := .print
  define := .define
  block := .block

end Confined

end Action

/-- The name stands somewhere in the statements. -/
def Node.Mentions (ns : List Node) (name : String) : Prop :=
  ∃ o ∈ Node.occurrences.occurrencesAll ns, o.name.lexeme = name

/-- Programs see no bindings and touch none but those of the names they mention. -/
theorem interpret_confined (level : Nat) (ns : List Node) :
    Action.Confined (Node.Mentions ns) (interpret level ns) :=
  (Action.Confined.closed (Node.Mentions ns)).interpret level ns
    (fun o mem => ⟨o, mem, rfl⟩) .throw .tryCatch

/-- On stacks of scopes that agree on the names which the statements mention, a run of them writes the
same and ends in the same way; the stacks agree on those names again, and all other bindings are as
they were. -/
theorem interpret_alike (level : Nat) (ns : List Node) {s s' : Scopes}
    (agree : s.AgreeOn (Node.Mentions ns) s') :
    ((interpret level ns).on s).1 = ((interpret level ns).on s').1 ∧
      ((interpret level ns).on s).2.output = ((interpret level ns).on s').2.output ∧
      ((interpret level ns).on s).2.trace = ((interpret level ns).on s').2.trace ∧
      ((interpret level ns).on s).2.scopes.AgreeOn (Node.Mentions ns)
        ((interpret level ns).on s').2.scopes ∧
      s.AgreeOn (fun name => ¬ Node.Mentions ns name) ((interpret level ns).on s).2.scopes ∧
      s'.AgreeOn (fun name => ¬ Node.Mentions ns name) ((interpret level ns).on s').2.scopes := by
  have confined := interpret_confined level ns
  have started : Machine.Alike (Node.Mentions ns) (.start s) (.start s') := ⟨agree, rfl, rfl⟩
  obtain ⟨same, alike⟩ := confined.alike started
  exact ⟨same, alike.output, alike.trace, alike.scopes, confined.apart (.start s),
    confined.apart (.start s')⟩

/-- The statements `a = nil; print b;` -/
def assignThenPrint : List Node :=
  [.expression (.assign ⟨.identifier, "a", 1⟩ (.literal ⟨.keyword .nil, "nil", 1⟩)),
    .print (.reference ⟨.identifier, "b", 1⟩)]

theorem mentions_assignThenPrint (h : Node.Mentions assignThenPrint name) :
    name = "a" ∨ name = "b" := by
  obtain ⟨o, mem, rfl⟩ := h
  simp only [assignThenPrint, Node.occurrences.occurrencesAll, Node.occurrences, List.nil_append,
    List.append_nil, List.cons_append, List.mem_cons, List.not_mem_nil, or_false] at mem
  rcases mem with rfl | rfl
  · exact .inl rfl
  · exact .inr rfl

/-- One scope, which binds `a` and `c` and not `b`. -/
def besides (value : Value) : Scopes := ⟨[("a", .bool true), ("c", value)], []⟩

/-- Both runs end for want of `b`, and whatever `c` was it still is. -/
theorem assignThenPrint_alike : (besides .nil).AgreeOn (Node.Mentions assignThenPrint)
      (besides (.string "x")) ∧
    ((interpret 0 assignThenPrint).on (besides .nil)).1 = .error (.error (.undefinedVariable "b")) ∧
    ((interpret 0 assignThenPrint).on (besides (.string "x"))).1 =
      .error (.error (.undefinedVariable "b")) ∧
    ((interpret 0 assignThenPrint).on (besides .nil)).2.scopes.bindings "c" = [some .nil] ∧
    ((interpret 0 assignThenPrint).on (besides (.string "x"))).2.scopes.bindings "c" =
      [some (.string "x")] := by
  have agree : (besides .nil).AgreeOn (Node.Mentions assignThenPrint) (besides (.string "x")) := by
    refine ⟨rfl, ?_⟩
    intro name named
    rcases mentions_assignThenPrint named with rfl | rfl <;> rfl
  have foreign : ¬ Node.Mentions assignThenPrint "c" := by
    intro named
    rcases mentions_assignThenPrint named with same | same <;> revert same <;> decide
  obtain ⟨same, _, _, _, kept, kept'⟩ := interpret_alike 0 assignThenPrint agree
  have ends : ((interpret 0 assignThenPrint).on (besides .nil)).1 =
      .error (.error (.undefinedVariable "b")) := rfl
  exact ⟨agree, ends, same.symm.trans ends, (kept.bindings foreign).symm, (kept'.bindings foreign).symm⟩

end Scriptlet
