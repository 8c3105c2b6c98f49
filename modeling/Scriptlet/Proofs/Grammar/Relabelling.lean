import Scriptlet.Proofs.Grammar.Recognition

/-! Reading looks at nothing but the kinds of tokens. Tokens that are changed without changing their
kinds are read as the same trees and the same errors, changed in the same way. -/
namespace Scriptlet

variable (f : Token → Token)

namespace Node

mutual

/-- Changes the tokens of a tree. -/
def relabel : Node → Node
  | missing => missing
  | token t => token (f t)
  | binary left operator right => binary left.relabel (f operator) right.relabel
  | unary operator operand => unary (f operator) operand.relabel
  | grouping inner => grouping inner.relabel
  | literal t => literal (f t)
  | reference name => reference (f name)
  | assign name value => assign (f name) value.relabel
  | declare name initial => declare (f name) initial.relabel
  | print value => print value.relabel
  | expression value => expression value.relabel
  | block statements => block (relabelAll statements)

def relabelAll : List Node → List Node
  | [] => []
  | n :: ns => n.relabel :: relabelAll ns

end

theorem relabelAll_eq_map (ns : List Node) : relabelAll f ns = ns.map (relabel f) := by
  induction ns with
  | nil => rw [relabelAll, List.map_nil]
  | cons n ns ih => rw [relabelAll, ih, List.map_cons]

end Node

def ParseError.relabel (e : ParseError) : ParseError := { e with found := f e.found }

def Obstacle.relabel (o : Obstacle) : Obstacle := ⟨o.cause, o.named.map f, o.rest.map f⟩

theorem Obstacle.error_relabel (o : Obstacle) (stop : Token) :
    (o.relabel f).error (f stop) = (o.error stop).relabel f := by
  obtain ⟨cause, named, rest⟩ := o
  cases named <;> rfl

namespace Grammar

open Scriptlet.Program

/-- The outcome of reading changed tokens, given how a result changes. -/
def relabelled (change : α → α) : Except Obstacle α → Except Obstacle α
  | .ok a => .ok (change a)
  | .error o => .error (o.relabel f)

/-- How a tree changes with the tokens that are left behind it. -/
def relabelRead : Node × List Token → Node × List Token := Prod.map (Node.relabel f) (List.map f)

variable {f}

theorem relabelled_bind {x y : Except Obstacle α} {change : α → α} (first : y = relabelled f change x)
    {g h : α → Except Obstacle β} {change' : β → β}
    (next : ∀ a, h (change a) = relabelled f change' (g a)) :
    (y >>= h) = relabelled f change' (x >>= g) := by
  rw [first]
  cases x with
  | error o => rfl
  | ok a => exact next a

section Kinds

variable (kinds : ∀ t, (f t).kind = t.kind)

include kinds

theorem isOneOf_relabel (symbols : List Symbol) (t : Token) :
    isOneOf symbols (f t) = isOneOf symbols t := by
  simp only [isOneOf, kinds]

theorem require_relabel (s : Symbol) (cause : ParseError.Cause) (ts : List Token) :
    require s cause (ts.map f) = relabelled f (List.map f) (require s cause ts) := by
  cases ts with
  | nil => rfl
  | cons t ts =>
    simp only [List.map_cons, require, kinds]
    split <;> rfl

theorem chain_relabel {operators : List Symbol}
    {operand : List Token → Except Obstacle (Node × List Token)}
    (same : ∀ ts, operand (ts.map f) = relabelled f (relabelRead f) (operand ts)) (fuel : Nat)
    (left : Node) (ts : List Token) :
    chain operators operand fuel (left.relabel f) (ts.map f) =
      relabelled f (relabelRead f) (chain operators operand fuel left ts) := by
  induction fuel generalizing left ts with
  | zero => rfl
  | succ fuel ih =>
    cases ts with
    | nil => rfl
    | cons t ts =>
      simp only [List.map_cons, chain, isOneOf_relabel kinds]
      split
      · apply relabelled_bind (same ts)
        rintro ⟨right, rest⟩
        have whole := ih (.binary left t right) rest
        rwa [Node.relabel] at whole
      · rfl

/-- An expression of any category is read alike. -/
theorem read_relabel (d : Nat) (c : Category) (ts : List Token) :
    c.read d (ts.map f) = relabelled f (relabelRead f) (c.read d ts) := by
  induction d generalizing c ts with
  | zero =>
    rw [read_zero, read_zero]
    rfl
  | succ d ih =>
    cases c with
    | expression =>
      rw [read_expression, read_expression]
      apply relabelled_bind (ih _ ts)
      rintro ⟨target, rest⟩
      cases rest with
      | nil => rfl
      | cons t after =>
        simp only [relabelRead, Prod.map_apply, List.map_cons, kinds]
        split
        · apply relabelled_bind (ih _ after)
          rintro ⟨value, rest⟩
          cases target <;> rfl
        · rfl
    | binary level =>
      rw [read_binary, read_binary]
      apply relabelled_bind (ih _ ts)
      rintro ⟨left, rest⟩
      simp only [relabelRead, Prod.map_apply, List.length_map]
      exact chain_relabel kinds (ih level.operand) _ left rest
    | unary =>
      rw [read_unary, read_unary]
      cases ts with
      | nil => exact ih .primary []
      | cons t ts =>
        simp only [List.map_cons, isOneOf_relabel kinds]
        split
        · apply relabelled_bind (ih _ ts)
          rintro ⟨inner, rest⟩
          rfl
        · exact ih .primary (t :: ts)
    | primary =>
      rw [read_primary, read_primary]
      cases ts with
      | nil => rfl
      | cons t ts =>
        simp only [List.map_cons, kinds]
        split
        · rfl
        split
        · rfl
        split
        · apply relabelled_bind (ih _ ts)
          rintro ⟨inner, rest⟩
          exact relabelled_bind (require_relabel kinds _ _ rest) fun rest => rfl
        · rfl

theorem initialValue_relabel (depth : Nat) (ts : List Token) :
    initialValue depth (ts.map f) = relabelled f (relabelRead f) (initialValue depth ts) := by
  cases ts with
  | nil => rfl
  | cons t ts =>
    simp only [List.map_cons, initialValue, kinds]
    split
    · exact read_relabel kinds depth .expression ts
    · rfl

theorem variableDeclaration_relabel (depth : Nat) (ts : List Token) :
    variableDeclaration depth (ts.map f) =
      relabelled f (relabelRead f) (variableDeclaration depth ts) := by
  cases ts with
  | nil => rfl
  | cons name ts =>
    simp only [List.map_cons, variableDeclaration, kinds]
    split
    · apply relabelled_bind (initialValue_relabel kinds depth ts)
      rintro ⟨initial, rest⟩
      exact relabelled_bind (require_relabel kinds _ _ rest) fun rest => rfl
    · rfl

theorem terminated_relabel (make : Node → Node) (made : ∀ n, make (n.relabel f) = (make n).relabel f)
    (cause : ParseError.Cause) (depth : Nat) (ts : List Token) :
    terminated make cause depth (ts.map f) =
      relabelled f (relabelRead f) (terminated make cause depth ts) := by
  apply relabelled_bind (read_relabel kinds depth .expression ts)
  rintro ⟨value, rest⟩
  refine relabelled_bind (require_relabel kinds _ _ rest) ?_
  intro rest
  change Except.ok (make (value.relabel f), rest.map f) = _
  rw [made]
  rfl

theorem resync_relabel (ts : List Token) : resync (ts.map f) = (resync ts).map f := by
  cases ts with
  | nil => rfl
  | cons passed ts =>
    change boundary (f passed) (ts.map f) = (boundary passed ts).map f
    induction ts generalizing passed with
    | nil => rfl
    | cons t ts ih =>
      simp only [List.map_cons, boundary, kinds]
      split
      · rfl
      · exact ih t

end Kinds

variable (f) in
def relabelAttempt (a : Attempt) : Attempt :=
  ⟨a.inner.map (·.relabel f), relabelled f (relabelRead f) a.outcome⟩

variable (f) in
def relabelRecovered (r : Recovered) : Recovered :=
  ⟨r.statements.map (·.relabel f), r.obstacles.map (·.relabel f), r.rest.map f⟩

section Kinds

variable (kinds : ∀ t, (f t).kind = t.kind)

include kinds

theorem settle_relabel (a : Attempt) : (relabelAttempt f a).settle = relabelRecovered f a.settle := by
  obtain ⟨inner, ⟨o⟩ | ⟨n, rest⟩⟩ := a
  · simp only [relabelAttempt, relabelled, Attempt.settle, relabelRecovered, List.map_append]
    rw [← resync_relabel kinds]
    rfl
  · rfl

theorem many_relabel {read : List Token → Attempt} {done : List Token → Bool}
    (same : ∀ ts, read (ts.map f) = relabelAttempt f (read ts))
    (ends : ∀ ts, done (ts.map f) = done ts) (fuel : Nat) (ts : List Token) :
    many read done fuel (ts.map f) = relabelRecovered f (many read done fuel ts) := by
  induction fuel generalizing ts with
  | zero => rfl
  | succ fuel ih =>
    simp only [many, ends]
    split
    · rfl
    · have others := ih (read ts).settle.rest
      rw [same, settle_relabel kinds]
      simp only [relabelRecovered, List.map_append] at others ⊢
      rw [others]

theorem blockDone_relabel (ts : List Token) : blockDone (ts.map f) = blockDone ts := by
  cases ts with
  | nil => rfl
  | cons t ts => simp only [List.map_cons, blockDone, kinds]

theorem declaration_relabel (levels : Nat) (ts : List Token) :
    declaration levels (ts.map f) = relabelAttempt f (declaration levels ts) := by
  induction levels generalizing ts with
  | zero => rfl
  | succ l ih =>
    have plain := terminated_relabel kinds .expression (fun _ => rfl) .endOfExpression
    have printed := terminated_relabel kinds .print (fun _ => rfl) .endOfPrint
    cases ts with
    | nil => exact congrArg (Attempt.mk []) (plain _ [])
    | cons t ts =>
      simp only [List.map_cons, declaration, kinds]
      split
      · exact congrArg (Attempt.mk []) (variableDeclaration_relabel kinds _ ts)
      · exact congrArg (Attempt.mk []) (printed _ ts)
      · rw [List.length_map, many_relabel kinds ih (blockDone_relabel kinds)]
        refine congrArg (Attempt.mk _) ?_
        refine relabelled_bind (require_relabel kinds _ _ _) ?_
        intro rest
        change Except.ok (Node.block (List.map _ _), _) = _
        rw [← Node.relabelAll_eq_map]
        rfl
      · exact congrArg (Attempt.mk []) (plain _ (t :: ts))

theorem recovered_relabel (ts : List Token) :
    recovered (ts.map f) = relabelRecovered f (recovered ts) := by
  have ends : ∀ ts : List Token, (ts.map f).isEmpty = ts.isEmpty := fun ts => List.isEmpty_map
  have whole := many_relabel kinds (declaration_relabel kinds blockLevels) ends ts.length ts
  rw [recovered, List.length_map]
  exact whole

end Kinds

end Grammar

end Scriptlet
