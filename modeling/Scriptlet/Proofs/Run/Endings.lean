import Scriptlet.Node.Stored
import Scriptlet.Proofs.Run.Safety

/-! How runs of trees end that need not come from any script. With nothing to trace, a tree is rendered
only for the message about an operator that does not apply. Its operands have values by then, and
what has a value has a rendered form. So loading needs no check of the trees: the errors of a run and
number literals without a numeral cover whatever a stored program may hold. -/
namespace Scriptlet

namespace Node

/-- The literal tokens in a tree. -/
def literals : Node → List Token
  | missing | token _ | reference _ => []
  | literal t => [t]
  | grouping n | unary _ n | assign _ n | declare _ n | print n | expression n => n.literals
  | binary left _ right => left.literals ++ right.literals
  | block statements => literalsAll statements
where
  literalsAll : List Node → List Token
    | [] => []
    | n :: ns => n.literals ++ literalsAll ns

/-- The tree has a rendered form, which only a limit on nesting below its height keeps back. -/
def Showable (n : Node) : Prop :=
  ∀ budget, (∃ text, n.render budget = .ok text) ∨
    budget < n.height ∧ n.render budget = .error .tooDeep

namespace Showable

theorem renders {n : Node} (h : n.Showable) : n.Renders := by
  intro budget f failed
  rcases h budget with ⟨text, shown⟩ | ⟨_, deep⟩
  · rw [shown] at failed
    cases failed
  · rw [deep] at failed
    cases failed
    rfl

theorem leaf {n : Node} (height : n.height = 1) (step : ∀ b, ∃ text, n.render (b + 1) = .ok text) :
    n.Showable := by
  intro budget
  cases budget with
  | zero => exact .inr ⟨by omega, by rw [render.eq_def]⟩
  | succ b => exact .inl (step b)

theorem wrap {n inner : Node} (h : inner.Showable) (f : String → String)
    (height : n.height = inner.height + 1)
    (step : ∀ b, n.render (b + 1) = inner.render b >>= fun text => .ok (f text)) : n.Showable := by
  intro budget
  cases budget with
  | zero => exact .inr ⟨by omega, by rw [render.eq_def]⟩
  | succ b =>
    rw [step]
    rcases h b with ⟨text, shown⟩ | ⟨below, deep⟩
    · exact .inl ⟨f text, by rw [shown]; rfl⟩
    · exact .inr ⟨by omega, by rw [deep]; rfl⟩

theorem binary {left right : Node} (hl : left.Showable) (hr : right.Showable) (operator : Token) :
    (Node.binary left operator right).Showable := by
  intro budget
  cases budget with
  | zero => exact .inr ⟨by simp [height], by rw [render.eq_def]⟩
  | succ b =>
    rw [render.eq_def]
    simp only [height]
    rcases hl b with ⟨l, shown⟩ | ⟨below, deep⟩
    · rcases hr b with ⟨r, shown'⟩ | ⟨below, deep⟩
      · exact .inl ⟨_, by rw [shown, shown']; rfl⟩
      · exact .inr ⟨by omega, by rw [shown, deep]; rfl⟩
    · exact .inr ⟨by omega, by rw [deep]; rfl⟩

end Showable

theorem result_of_evaluated {n : Node} (evaluated : (n.evaluate level budget).exec m = (.ok x, m')) :
    ∃ y o, (n.result level budget).exec m = (.ok y, o) := by
  rw [evaluate_eq] at evaluated
  split at evaluated
  · cases evaluated
  · obtain ⟨y, o, ran, _⟩ := Action.exec_bind_ok evaluated
    exact ⟨y, o, ran⟩

/-- What has a value can be shown. -/
theorem showable_of_evaluated : ∀ (n : Node) {level budget : Nat} {m m' : Machine} {x : Value},
    (n.evaluate level budget).exec m = (.ok x, m') → n.Showable
  | .literal t, _, _, _, _, _, _ => .leaf rfl fun _ => ⟨t.lexeme, rfl⟩
  | .reference name, _, _, _, _, _, _ => .leaf rfl fun _ => ⟨name.lexeme, rfl⟩
  | .grouping inner, _, _, _, _, _, evaluated => by
    obtain ⟨_, _, ran⟩ := result_of_evaluated evaluated
    exact (showable_of_evaluated inner ran).wrap (fun text => "(grouping " ++ text ++ ")") rfl
      fun _ => rfl
  | .assign name value, _, _, _, _, _, evaluated => by
    obtain ⟨_, _, ran⟩ := result_of_evaluated evaluated
    obtain ⟨_, _, ran, _⟩ := Action.exec_bind_ok ran
    exact (showable_of_evaluated value ran).wrap (fun text => name.lexeme ++ " = " ++ text) rfl
      fun _ => rfl
  | .unary operator operand, _, _, _, _, _, evaluated => by
    obtain ⟨_, _, ran⟩ := result_of_evaluated evaluated
    obtain ⟨_, _, ran, _⟩ := Action.exec_bind_ok ran
    exact (showable_of_evaluated operand ran).wrap
      (fun text => "(" ++ operator.lexeme ++ " " ++ text ++ ")") rfl fun _ => rfl
  | .binary left operator right, _, _, _, _, _, evaluated => by
    obtain ⟨_, _, ran⟩ := result_of_evaluated evaluated
    obtain ⟨_, _, first, ran⟩ := Action.exec_bind_ok ran
    obtain ⟨_, _, second, _⟩ := Action.exec_bind_ok ran
    exact (showable_of_evaluated left first).binary (showable_of_evaluated right second) operator
  | .missing, _, _, _, _, _, evaluated | .token _, _, _, _, _, _, evaluated
  | .declare _ _, _, _, _, _, _, evaluated | .print _, _, _, _, _, _, evaluated
  | .expression _, _, _, _, _, _, evaluated | .block _, _, _, _, _, _, evaluated => by
    obtain ⟨_, _, ran⟩ := result_of_evaluated evaluated
    cases ran

theorem evaluate_untraced (n : Node) (budget : Nat) :
    n.evaluate 0 budget = if budget = 0 then throw .tooDeep else n.result 0 budget := by
  rw [evaluate_eq]
  split
  · rfl
  · exact bind_pure (n.result 0 budget)

theorem execute_untraced (n : Node) (budget : Nat) :
    n.execute 0 budget = if budget = 0 then throw .tooDeep else n.effect 0 budget := by
  rw [execute_eq]
  split
  · rfl
  · exact pure_bind () fun _ => n.effect 0 budget

end Node

/-- The faults in which a run may end, given the literals of its trees: the errors that are told to
whoever runs it, and the want of a numeral in a number. -/
inductive Fault.Foreseen (literals : List Token) : Fault → Prop where
  | error (e : RuntimeError) : Foreseen literals (.error e)
  | numeral (mem : t ∈ literals) (number : t.kind = .number) (unread : readNumber? t.lexeme = none) :
    Foreseen literals (.numeral t.lexeme)

theorem Token.value_foreseen {t : Token} (mem : t ∈ literals) :
    Outcome.FailsOnly (·.Foreseen literals) t.value := by
  unfold Token.value
  split
  next number =>
    split
    · exact .ok _
    next unread => exact .error (.numeral mem number unread)
  · exact .ok _
  · exact .ok _
  · exact .ok _
  · exact .ok _
  · exact .error (.error _)

namespace Action

/-- Nothing but foreseen faults and a limit on nesting ends a run. -/
def foreseen (literals : List Token) : Law where
  related _ _ := True
  refl _ := trivial
  trans _ _ := trivial
  fault f := f = .tooDeep ∨ f.Foreseen literals

variable {literals : List Token}

theorem Obeys.foreseen {a : Action α} (safe : Obeys safety a) : Obeys (foreseen literals) a := by
  intro m
  refine ⟨trivial, ?_⟩
  intro f failed
  cases (safe m).2 f failed with
  | error _ => exact .inr (.error _)
  | tooDeep => exact .inl rfl

theorem fail_foreseen (e : RuntimeError) : Obeys (foreseen literals) (fail e : Action α) :=
  .throw (.inr (.error e))

theorem unary_foreseen (operator : Token) (value : Value) :
    Obeys (foreseen literals) (unary operator value) := by
  unfold unary
  split
  · split
    · exact .pure _
    · exact fail_foreseen _
  · exact .pure _
  · exact fail_foreseen _

theorem within_foreseen {body : Action α} (h : Obeys (foreseen literals) body) :
    Obeys (foreseen literals) (within body) := by
  intro m
  rw [exec_within]
  refine ⟨trivial, ?_⟩
  split
  · exact (h _).2
  · exact Outcome.FailsOnly.error (.inr (.error .globalScope))

theorem block_foreseen {body : Action Unit} (h : Obeys (foreseen literals) body) :
    Obeys (foreseen literals) (block 0 body) := by
  have inner := depth_safe.foreseen.bind fun d => (record_safe 0 (.pushed d)).foreseen.bind fun _ => h
  exact (within_foreseen inner).bind fun _ =>
    depth_safe.foreseen.bind fun d => (record_safe 0 (.popped (d + 1))).foreseen

theorem evaluate_foreseen_of_result {n : Node}
    (result : ∀ budget, Obeys (foreseen literals) (n.result 0 budget)) (budget : Nat) :
    Obeys (foreseen literals) (n.evaluate 0 budget) := by
  rw [Node.evaluate_untraced]
  split
  · exact .throw (.inl rfl)
  · exact result budget

theorem execute_foreseen_of_effect {n : Node}
    (effect : ∀ budget, Obeys (foreseen literals) (n.effect 0 budget)) (budget : Nat) :
    Obeys (foreseen literals) (n.execute 0 budget) := by
  rw [Node.execute_untraced]
  split
  · exact .throw (.inl rfl)
  · exact effect budget

/-- An operator that does not apply is reached with operands that can be shown. -/
theorem evaluate_foreseen : ∀ (n : Node) (_ : n.literals ⊆ literals) (budget : Nat),
    Obeys (foreseen literals) (n.evaluate 0 budget)
  | .literal t, own, budget => by
    apply evaluate_foreseen_of_result
    intro _
    have mem : t ∈ literals := own (List.mem_singleton.mpr rfl)
    exact .liftM fun f failed => .inr (t.value_foreseen mem f failed)
  | .reference name, _, budget => by
    apply evaluate_foreseen_of_result
    intro _
    exact (lookup_safe name.lexeme).foreseen
  | .grouping inner, own, budget => by
    apply evaluate_foreseen_of_result
    intro b
    exact evaluate_foreseen inner own (b - 2)
  | .assign name value, own, budget => by
    apply evaluate_foreseen_of_result
    intro b
    exact (evaluate_foreseen value own (b - 2)).bind fun v => (reassign_safe 0 name v).foreseen
  | .unary operator operand, own, budget => by
    apply evaluate_foreseen_of_result
    intro b
    exact (evaluate_foreseen operand own (b - 3)).bind (unary_foreseen operator)
  | .binary left operator right, own, budget => by
    apply evaluate_foreseen_of_result
    intro b
    refine (evaluate_foreseen left (List.append_subset.mp own).1 (b - 3)).bind_of_ok ?_
    intro x _ _ first
    refine (evaluate_foreseen right (List.append_subset.mp own).2 (b - 3)).bind_of_ok ?_
    intro y _ _ second
    -- Only now is the operator looked at, when both operands have had values.
    have showable := (Node.showable_of_evaluated left first).binary
      (Node.showable_of_evaluated right second) operator
    exact (binary_safe showable.renders (b - 3) operator x y).foreseen
  | .missing, _, budget | .token _, _, budget | .declare _ _, _, budget | .print _, _, budget
  | .expression _, _, budget | .block _, _, budget => by
    apply evaluate_foreseen_of_result
    intro _
    exact fail_foreseen _

theorem initialValue_foreseen {n : Node} (own : n.literals ⊆ literals) (budget : Nat) :
    Obeys (foreseen literals) (n.initialValue 0 budget) := by
  by_cases given : n = .missing
  · subst given
    exact .pure _
  · rw [Node.initialValue_of_ne_missing given]
    exact evaluate_foreseen n own budget

mutual

theorem execute_foreseen : ∀ (n : Node) (_ : n.literals ⊆ literals) (budget : Nat),
    Obeys (foreseen literals) (n.execute 0 budget)
  | .expression value, own, budget => by
    apply execute_foreseen_of_effect
    intro b
    exact (evaluate_foreseen value own (b - 1)).discard
  | .print value, own, budget => by
    apply execute_foreseen_of_effect
    intro b
    exact (evaluate_foreseen value own (b - 1)).bind fun v => (print_safe v.display).foreseen
  | .declare name initial, own, budget => by
    apply execute_foreseen_of_effect
    intro b
    exact (initialValue_foreseen (n := initial) own (b - 1)).bind fun v => (declare_safe 0 name v).foreseen
  | .block statements, own, budget => by
    apply execute_foreseen_of_effect
    intro b
    exact block_foreseen (executeAll_foreseen statements own (b - 1))
  | .missing, _, budget | .token _, _, budget | .literal _, _, budget | .reference _, _, budget
  | .grouping _, _, budget | .assign _ _, _, budget | .unary _ _, _, budget
  | .binary _ _ _, _, budget => by
    apply execute_foreseen_of_effect
    intro _
    exact fail_foreseen _

theorem executeAll_foreseen : ∀ (ns : List Node) (_ : Node.literals.literalsAll ns ⊆ literals)
    (budget : Nat), Obeys (foreseen literals) (Node.executeAll 0 ns budget)
  | [], _, budget => by
    rw [Node.executeAll_nil]
    exact .pure ()
  | n :: ns, own, budget => by
    rw [Node.executeAll_cons]
    exact (execute_foreseen n (List.append_subset.mp own).1 budget).bind fun _ =>
      executeAll_foreseen ns (List.append_subset.mp own).2 budget

end

end Action

/-- With nothing to trace, the evaluation of a binary expression comes to its operator, and that does
not apply to the values of the operands. -/
inductive Node.Mismatch (left : Node) (operator : Token) (right : Node) (budget : Nat)
    (m m' : Machine) : Prop where
  | intro (first : (left.evaluate 0 budget).exec m = (.ok x, n))
    (second : (right.evaluate 0 budget).exec n = (.ok y, m'))
    (divisible : operator.kind.dividesByZero y = false)
    (inapplicable : operator.kind.onValues x y = none)

/-- The message about the operator is made, with the expression rendered, or the expression is too high
for what is left of the limit on nesting. -/
theorem Node.Mismatch.ends {left right : Node} (h : Mismatch left operator right budget m m') :
    (∃ text, (binary left operator right).render budget = .ok text ∧
      ((binary left operator right).evaluate 0 (budget + 3)).exec m =
        (.error (.error (.uninterpretable text)), m')) ∨
    budget < (binary left operator right).height ∧
      ((binary left operator right).evaluate 0 (budget + 3)).exec m = (.error .tooDeep, m') := by
  obtain ⟨first, second, divisible, inapplicable⟩ := h
  have reached : ((binary left operator right).evaluate 0 (budget + 3)).exec m =
      (Action.shown budget (binary left operator right) >>= fun text =>
        (Action.fail (.uninterpretable text) : Action Value)).exec m' := by
    rw [evaluate_untraced, if_neg (by omega), result, Action.exec_bind]
    simp only [Nat.add_sub_cancel, first]
    rw [Action.exec_bind]
    simp only [second]
    rw [Action.binary, divisible, inapplicable]
    rfl
  rw [reached, Action.exec_bind]
  rcases (showable_of_evaluated left first).binary (showable_of_evaluated right second) operator
    budget with ⟨text, shown⟩ | ⟨below, deep⟩
  · exact .inl ⟨text, shown, by rw [Action.shown, shown]; rfl⟩
  · exact .inr ⟨below, by rw [Action.shown, deep]; rfl⟩

namespace Program

end Program

end Scriptlet
