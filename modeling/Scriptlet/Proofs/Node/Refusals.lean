import Scriptlet.Proofs.Node.Extensions

/-! What the loader refuses. A value that extends no stored form lacks a key or holds a value of the
wrong sort, unless a token in it is ill typed or it nests too deep. -/
namespace Scriptlet

open Outcome (FailsOnly bind_eq_error)

/-- A field that has to be there, or a kind of token, does not exist. -/
def StoredFault.missesKey : StoredFault → Bool
  | missingField _ | unknownKind _ => true
  | _ => false

/-- A value is of a sort that cannot be read where it stands. -/
def StoredFault.wrongSort : StoredFault → Bool
  | notAToken | collectionAsKind | notATree _ | unknownTree _ | notASequence | notAProgram _ => true
  | _ => false

namespace Stored

/-- The lexeme of a token is no text, or its line no whole number, though it is there. -/
def IllTyped (t : Json) : Prop :=
  ∃ given, t = .object given ∧
    ((∃ o, given.lookup "lexeme" = some o ∧ ∀ s, o ≠ .string s) ∨
      ∃ o, given.lookup "line" = some o ∧ ∀ n, o ≠ .int n)

/-- In which fields a tree of some sort has its tokens. -/
def tokensOf : String → List String
  | "Binary" | "Unary" => ["operator"]
  | "Literal" => ["token"]
  | "Variable" | "Assign" | "VarDecl" => ["name"]
  | _ => []

/-- In which fields a tree of some sort has its parts. -/
def treesOf : String → List String
  | "Binary" => ["left", "right"]
  | "Unary" => ["operand"]
  | "Grouping" => ["inner"]
  | "Assign" => ["value"]
  | "VarDecl" => ["initializer"]
  | "Print" | "ExprStmt" => ["expr"]
  | _ => []

/-- The places in a value at which a token is read when a tree is loaded from it. -/
inductive ReadsToken : Json → Json → Prop
  | whole (named : given.lookup "type" = some (.string "Token")) :
    ReadsToken (.object given) (.object given)
  | own (named : given.lookup "type" = some (.string sort)) (field : key ∈ tokensOf sort)
    (there : given.lookup key = some t) : ReadsToken (.object given) t
  | inner (named : given.lookup "type" = some (.string sort)) (field : key ∈ treesOf sort)
    (there : given.lookup key = some o) (reads : ReadsToken o t) : ReadsToken (.object given) t
  | statement (named : given.lookup "type" = some (.string "Block"))
    (there : given.lookup "statements" = some (.array items)) (mem : o ∈ items)
    (reads : ReadsToken o t) : ReadsToken (.object given) t

/-- Why loading a tree may fail. -/
def Refused (o : Json) (e : StoredFault) : Prop :=
  e = .tooDeep ∨ e.missesKey = true ∨ e.wrongSort = true ∨
    e = .tokenField ∧ ∃ t, ReadsToken o t ∧ IllTyped t

theorem Refused.within {o p : Json} (refused : Refused o e)
    (inside : ∀ t, ReadsToken o t → ReadsToken p t) : Refused p e := by
  obtain deep | key | sort | ⟨cause, t, reads, ill⟩ := refused
  · exact .inl deep
  · exact .inr (.inl key)
  · exact .inr (.inr (.inl sort))
  · exact .inr (.inr (.inr ⟨cause, t, inside t reads, ill⟩))

theorem Refused.of_token {o t : Json}
    (refused : e.missesKey = true ∨ e.wrongSort = true ∨ e = .tokenField ∧ IllTyped t)
    (reads : ReadsToken o t) : Refused o e := by
  obtain key | sort | ⟨cause, ill⟩ := refused
  · exact .inr (.inl key)
  · exact .inr (.inr (.inl sort))
  · exact .inr (.inr (.inr ⟨cause, t, reads, ill⟩))

theorem field_fails (given : Json.Fields) (key : String) :
    FailsOnly (fun e => e.missesKey = true) (field given key) := by
  unfold field
  split
  · exact .ok _
  · exact .error rfl

theorem kind_fails (o : Json) :
    FailsOnly (fun e => e.missesKey = true ∨ e.wrongSort = true) (TokenKind.ofStored o) := by
  unfold TokenKind.ofStored
  split
  · exact .error (.inr rfl)
  · exact .error (.inr rfl)
  · split
    · exact .ok _
    · exact .error (.inl rfl)
  · exact .error (.inl rfl)

theorem token_fails (o : Json) : FailsOnly (fun e => e.missesKey = true ∨ e.wrongSort = true ∨
    e = .tokenField ∧ IllTyped o) (token o) := by
  intro e failed
  cases o with
  | object given =>
    have lacks {key : String} (failed : field given key = .error e) : e.missesKey = true :=
      field_fails given key e failed
    rcases bind_eq_error.mp failed with failed | ⟨kind, _, failed⟩
    · exact .inl (lacks failed)
    rcases bind_eq_error.mp failed with failed | ⟨_, _, failed⟩
    · exact (kind_fails kind e failed).imp_right .inl
    rcases bind_eq_error.mp failed with failed | ⟨lexeme, there, failed⟩
    · exact .inl (lacks failed)
    rcases bind_eq_error.mp failed with failed | ⟨_, _, failed⟩
    · obtain ⟨cause, other⟩ := text_eq_error.mp failed
      exact .inr (.inr ⟨cause, given, rfl, .inl ⟨lexeme, field_eq_ok.mp there, other⟩⟩)
    rcases bind_eq_error.mp failed with failed | ⟨line, there, failed⟩
    · exact .inl (lacks failed)
    rcases bind_eq_error.mp failed with failed | ⟨_, _, made⟩
    · obtain ⟨cause, other⟩ := whole_eq_error.mp failed
      exact .inr (.inr ⟨cause, given, rfl, .inr ⟨line, field_eq_ok.mp there, other⟩⟩)
    · cases made
  | _ =>
    cases failed
    exact .inr (.inl rfl)

theorem sequence_fails (o : Option Json) :
    FailsOnly (fun e => e.wrongSort = true) (Stored.sequence o) := by
  unfold Stored.sequence
  split
  · exact .ok _
  · exact .ok _
  · split
    · exact .ok _
    · exact .error rfl
  · exact .ok _
  · exact .error rfl
  · exact .error rfl

end Stored

namespace Node

open Stored

section Failing

variable {b : Nat} {given : Json.Fields} {sort key : String}
  (named : given.lookup "type" = some (.string sort))
include named

theorem refused_tree {f : Node → Except StoredFault α} (own : key ∈ treesOf sort)
    (fails : ∀ o, FailsOnly (Refused o) (ofStored b o))
    (others : ∀ n, FailsOnly (Refused (.object given)) (f n)) :
    FailsOnly (Refused (.object given)) (do f (← ofStored b (← field given key))) := by
  intro e failed
  rcases bind_eq_error.mp failed with failed | ⟨o, there, failed⟩
  · exact .inr (.inl (field_fails given key e failed))
  rcases bind_eq_error.mp failed with failed | ⟨n, _, failed⟩
  · exact (fails o e failed).within fun _ => .inner named own (field_eq_ok.mp there)
  · exact others n e failed

theorem refused_token {f : Token → Except StoredFault α} (own : key ∈ tokensOf sort)
    (others : ∀ n, FailsOnly (Refused (.object given)) (f n)) :
    FailsOnly (Refused (.object given)) (do f (← Stored.token (← field given key))) := by
  intro e failed
  rcases bind_eq_error.mp failed with failed | ⟨o, there, failed⟩
  · exact .inr (.inl (field_fails given key e failed))
  rcases bind_eq_error.mp failed with failed | ⟨t, _, failed⟩
  · exact .of_token (token_fails o e failed) (.own named own (field_eq_ok.mp there))
  · exact others t e failed

end Failing

theorem sequence_mem {o : Option Json} {items : List Json} {item : Json}
    (read : Stored.sequence o = .ok items) (mem : item ∈ items) : o = some (.array items) := by
  unfold Stored.sequence at read
  split at read
  · cases read
    cases mem
  · cases read
    rfl
  · split at read
    · cases read
      cases mem
    · cases read
  · cases read
    cases mem
  · cases read
  · cases read

theorem ofStored_refused (budget : Nat) (o : Json) : FailsOnly (Refused o) (ofStored budget o) := by
  -- A block takes two steps of the budget at once.
  induction budget using Nat.strongRecOn generalizing o with
  | ind budget ih =>
  unfold ofStored
  split
  · exact .error (.inl rfl)
  next b =>
  have part : ∀ o, FailsOnly (Refused o) (ofStored b o) := ih b (Nat.lt_succ_self b)
  split
  · exact .ok _
  next given =>
    split
    next named =>
      intro e failed
      rcases bind_eq_error.mp failed with failed | ⟨t, _, made⟩
      · exact .of_token (token_fails _ e failed) (.whole named)
      · cases made
    next named =>
      refine refused_tree named (by simp [treesOf]) part fun left => ?_
      refine refused_token named (by simp [tokensOf]) fun operator => ?_
      exact refused_tree named (by simp [treesOf]) part fun right => .ok _
    next named =>
      refine refused_token named (by simp [tokensOf]) fun operator => ?_
      exact refused_tree named (by simp [treesOf]) part fun operand => .ok _
    next named => exact refused_tree named (by simp [treesOf]) part fun inner => .ok _
    next named => exact refused_token named (by simp [tokensOf]) fun t => .ok _
    next named => exact refused_token named (by simp [tokensOf]) fun name => .ok _
    next named =>
      refine refused_token named (by simp [tokensOf]) fun name => ?_
      exact refused_tree named (by simp [treesOf]) part fun value => .ok _
    next named =>
      refine refused_token named (by simp [tokensOf]) fun name => ?_
      refine FailsOnly.bind (fun e failed => ?_) fun initial => .ok _
      cases there : given.lookup "initializer" with
      | none =>
        rw [there] at failed
        refine (part _ e failed).within fun t reads => ?_
        cases reads
      | some o =>
        rw [there] at failed
        exact (part _ e failed).within fun t => .inner named (by simp [treesOf]) there
    next named => exact refused_tree named (by simp [treesOf]) part fun value => .ok _
    next named => exact refused_tree named (by simp [treesOf]) part fun value => .ok _
    next named =>
      intro e failed
      rcases bind_eq_error.mp failed with failed | ⟨items, read, failed⟩
      · exact .inr (.inr (.inl (sequence_fails _ e failed)))
      split at failed
      next =>
        cases failed
        exact .inl rfl
      next b failed =>
        refine FailsOnly.bind (FailsOnly.mapM fun o mem e failed => ?_) (fun _ => .ok _) e failed
        exact (ih b (by omega) o e failed).within fun t => .statement named (sequence_mem read mem) mem
    next => exact .error (.inr (.inr (.inl rfl)))
  · exact .error (.inr (.inr (.inl rfl)))

/-- A tree is loaded from a value exactly if the value extends what is stored of the tree, unless it
is too deep for the loader. From any other value nothing is loaded: a key is missing or there is a
value of the wrong sort, unless there is a token with a lexeme that is no text or a line that is no
whole number, or the value itself goes too deep. -/
theorem loads_extensions (budget : Nat) (o : Json) :
    (∀ n : Node, ofStored budget o = .ok n ↔ Extends true o n.stored ∧ n.height ≤ budget) ∧
    (∀ n : Node, Extends true o n.stored → ¬ n.height ≤ budget → ofStored budget o = .error .tooDeep) ∧
    ∀ e, ofStored budget o = .error e → e = .tooDeep ∨ e.missesKey = true ∨ e.wrongSort = true ∨
      e = .tokenField ∧ ∃ t, ReadsToken o t ∧ IllTyped t := by
  refine ⟨fun n => ⟨fun loaded => ?_, fun own => ?_⟩, fun n own deep => ?_,
    ofStored_refused budget o⟩
  · exact ⟨extends_of_ofStored budget o n loaded, ofStored_height budget o n loaded⟩
  · rw [ofStored_of_extends n budget o own.1, limited, if_pos own.2]
  · rw [ofStored_of_extends n budget o own, limited, if_neg deep]

end Node

end Scriptlet
