import Scriptlet.Proofs.Grammar.Relabelling
import Scriptlet.Proofs.Run.Steps

/-! Running a tree does not depend on the lines of its tokens: trees whose tokens differ in nothing
else are rendered, evaluated and executed alike. -/
namespace Scriptlet

theorem Node.relabel_ne_missing {f : Token → Token} {n : Node} (given : n ≠ .missing) :
    n.relabel f ≠ .missing := by
  cases n with
  | missing => exact absurd rfl given
  | _ => nofun

section Rendering

variable {f : Token → Token}

mutual

theorem Node.render_relabel (lexemes : ∀ t, (f t).lexeme = t.lexeme) :
    ∀ (n : Node) (budget : Nat), (n.relabel f).render budget = n.render budget
  | n, 0 => by rw [Node.render.eq_def, Node.render.eq_def]
  | .missing, _ + 1 => rfl
  | .token _, _ + 1 => rfl
  | .literal t, _ + 1 => congrArg Except.ok (lexemes t)
  | .reference name, _ + 1 => congrArg Except.ok (lexemes name)
  | .grouping inner, b + 1 => by
    simp only [Node.relabel, Node.render, Node.render_relabel lexemes inner b]
  | .unary operator operand, b + 1 => by
    simp only [Node.relabel, Node.render, Node.render_relabel lexemes operand b, lexemes]
  | .binary left operator right, b + 1 => by
    simp only [Node.relabel, Node.render, Node.render_relabel lexemes left b,
      Node.render_relabel lexemes right b, lexemes]
  | .assign name value, b + 1 => by
    simp only [Node.relabel, Node.render, Node.render_relabel lexemes value b, lexemes]
  | .declare name initial, b + 1 => by
    have same := Node.render_relabel lexemes initial b
    by_cases given : initial = .missing
    · subst given
      exact congrArg (fun text => Except.ok ("(var " ++ text ++ ")")) (lexemes name)
    · rw [Node.relabel, Node.render_declare (Node.relabel_ne_missing given),
        Node.render_declare given, same, lexemes]
  | .print value, b + 1 => by
    simp only [Node.relabel, Node.render, Node.render_relabel lexemes value b]
  | .expression value, b + 1 => by
    simp only [Node.relabel, Node.render, Node.render_relabel lexemes value b]
  | .block statements, b + 1 => by
    simp only [Node.relabel, Node.render, Node.renderAll_relabel lexemes statements (b - 1)]

theorem Node.renderAll_relabel (lexemes : ∀ t, (f t).lexeme = t.lexeme) :
    ∀ (ns : List Node) (budget : Nat),
      Node.renderAll budget (Node.relabelAll f ns) = Node.renderAll budget ns
  | [], _ => rfl
  | n :: ns, budget => by
    simp only [Node.relabelAll, Node.renderAll, Node.render_relabel lexemes n budget,
      Node.renderAll_relabel lexemes ns budget]

end

theorem shown_relabel (lexemes : ∀ t, (f t).lexeme = t.lexeme) (budget : Nat) (n : Node) :
    Action.shown budget (n.relabel f) = Action.shown budget n := by
  rw [Action.shown, Action.shown, Node.render_relabel lexemes]

end Rendering

section Running

variable {f : Token → Token} (lexemes : ∀ t, (f t).lexeme = t.lexeme)
  (kinds : ∀ t, (f t).kind = t.kind)

include lexemes in
theorem traceValue_relabel (level budget : Nat) (n : Node) :
    Action.traceValue level budget (n.relabel f) = Action.traceValue level budget n := by
  funext value
  rw [Action.traceValue, Action.traceValue, shown_relabel lexemes]

include lexemes in
theorem traceStatement_relabel (level budget : Nat) (n : Node) :
    Action.traceStatement level budget (n.relabel f) = Action.traceStatement level budget n := by
  rw [Action.traceStatement, Action.traceStatement, shown_relabel lexemes]

include lexemes in
theorem reassign_relabel (level : Nat) (name : Token) :
    Action.reassign level (f name) = Action.reassign level name := by
  funext value
  rw [Action.reassign, Action.reassign, lexemes]

include lexemes in
theorem declare_relabel (level : Nat) (name : Token) :
    Action.declare level (f name) = Action.declare level name := by
  funext value
  rw [Action.declare, Action.declare, lexemes]

include lexemes in
theorem evaluate_of_result {n : Node} {level : Nat}
    (same : ∀ budget, (n.relabel f).result level budget = n.result level budget) (budget : Nat) :
    (n.relabel f).evaluate level budget = n.evaluate level budget := by
  rw [Node.evaluate_eq, Node.evaluate_eq, same, traceValue_relabel lexemes]

include lexemes in
theorem execute_of_effect {n : Node} {level : Nat}
    (same : ∀ budget, (n.relabel f).effect level budget = n.effect level budget) (budget : Nat) :
    (n.relabel f).execute level budget = n.execute level budget := by
  rw [Node.execute_eq, Node.execute_eq, same, traceStatement_relabel lexemes]

include lexemes kinds

theorem value_relabel (t : Token) : (f t).value = t.value := by
  simp only [Token.value, kinds, lexemes]

theorem unary_relabel (operator : Token) : Action.unary (f operator) = Action.unary operator := by
  funext value
  simp only [Action.unary, kinds, lexemes]

theorem binary_relabel (budget : Nat) (whole : Node) (operator : Token) :
    Action.binary budget (whole.relabel f) (f operator) = Action.binary budget whole operator := by
  funext left right
  simp only [Action.binary, kinds, shown_relabel lexemes]

/-- Expressions evaluate alike. -/
theorem Node.evaluate_relabel (level : Nat) : ∀ (n : Node) (budget : Nat),
    (n.relabel f).evaluate level budget = n.evaluate level budget
  | .literal t, budget => by
    apply evaluate_of_result lexemes
    intro b
    simp only [Node.relabel, Node.result, value_relabel lexemes kinds]
  | .reference name, budget => by
    apply evaluate_of_result lexemes
    intro b
    simp only [Node.relabel, Node.result, lexemes]
  | .grouping inner, budget => by
    apply evaluate_of_result lexemes
    intro b
    simp only [Node.relabel, Node.result, Node.evaluate_relabel level inner]
  | .assign name value, budget => by
    apply evaluate_of_result lexemes
    intro b
    simp only [Node.relabel, Node.result, Node.evaluate_relabel level value,
      reassign_relabel lexemes]
  | .unary operator operand, budget => by
    apply evaluate_of_result lexemes
    intro b
    simp only [Node.relabel, Node.result, Node.evaluate_relabel level operand,
      unary_relabel lexemes kinds]
  | .binary left operator right, budget => by
    apply evaluate_of_result lexemes
    intro b
    have whole := binary_relabel lexemes kinds (b - 3) (.binary left operator right) operator
    simp only [Node.relabel] at whole
    simp only [Node.relabel, Node.result, Node.evaluate_relabel level left,
      Node.evaluate_relabel level right, whole]
  | .missing, budget | .token _, budget | .declare _ _, budget | .print _, budget
  | .expression _, budget | .block _, budget => evaluate_of_result lexemes (fun _ => rfl) budget

theorem Node.initialValue_relabel (level : Nat) (n : Node) (budget : Nat) :
    (n.relabel f).initialValue level budget = n.initialValue level budget := by
  by_cases given : n = .missing
  · subst given
    rfl
  · rw [Node.initialValue_of_ne_missing (Node.relabel_ne_missing given),
      Node.initialValue_of_ne_missing given, Node.evaluate_relabel lexemes kinds]

end Running

section Statements

variable {f : Token → Token}

mutual

/-- Statements execute alike. -/
theorem Node.execute_relabel (lexemes : ∀ t, (f t).lexeme = t.lexeme)
    (kinds : ∀ t, (f t).kind = t.kind) (level : Nat) :
    ∀ (n : Node) (budget : Nat), (n.relabel f).execute level budget = n.execute level budget
  | .expression value, budget => by
    apply execute_of_effect lexemes
    intro b
    simp only [Node.relabel, Node.effect, Node.evaluate_relabel lexemes kinds]
  | .print value, budget => by
    apply execute_of_effect lexemes
    intro b
    simp only [Node.relabel, Node.effect, Node.evaluate_relabel lexemes kinds]
  | .declare name initial, budget => by
    apply execute_of_effect lexemes
    intro b
    simp only [Node.relabel, Node.effect, Node.initialValue_relabel lexemes kinds,
      declare_relabel lexemes]
  | .block statements, budget => by
    apply execute_of_effect lexemes
    intro b
    simp only [Node.relabel, Node.effect,
      Node.executeAll_relabel lexemes kinds level statements (b - 1)]
  | .missing, budget | .token _, budget | .literal _, budget | .reference _, budget
  | .grouping _, budget | .assign _ _, budget | .unary _ _, budget | .binary _ _ _, budget =>
    execute_of_effect lexemes (fun _ => rfl) budget

theorem Node.executeAll_relabel (lexemes : ∀ t, (f t).lexeme = t.lexeme)
    (kinds : ∀ t, (f t).kind = t.kind) (level : Nat) : ∀ (ns : List Node) (budget : Nat),
      Node.executeAll level (Node.relabelAll f ns) budget = Node.executeAll level ns budget
  | [], _ => rfl
  | n :: ns, budget => by
    rw [Node.relabelAll, Node.executeAll_cons, Node.executeAll_cons,
      Node.execute_relabel lexemes kinds level n budget,
      Node.executeAll_relabel lexemes kinds level ns budget]

end

/-- Programs run alike. -/
theorem interpret_relabel (lexemes : ∀ t, (f t).lexeme = t.lexeme)
    (kinds : ∀ t, (f t).kind = t.kind) (level : Nat) (ns : List Node) :
    interpret level (ns.map (.relabel f)) = interpret level ns := by
  rw [interpret, ← Node.relabelAll_eq_map, Node.executeAll_relabel lexemes kinds]
  rfl

end Statements

end Scriptlet
