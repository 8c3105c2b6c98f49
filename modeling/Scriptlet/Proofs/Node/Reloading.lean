import Scriptlet.Proofs.Node.Stored

/-! Storing what was loaded. A loaded tree is no deeper than the loader went, so it can always be
stored, and its stored form is loaded as the same tree again. However the fields of the first stored
form were arranged, loading and storing bring it to a normal form. -/
namespace Scriptlet

open Outcome (YieldsOnly)

namespace Node

theorem ofStored_height (budget : Nat) (o : Json) :
    YieldsOnly (fun n => n.height ≤ budget) (ofStored budget o) := by
  -- A block takes two steps of the budget at once.
  induction budget using Nat.strongRecOn generalizing o with
  | ind budget ih =>
  unfold ofStored
  split
  · exact .error _
  next b =>
  have leaf : 1 ≤ b + 1 := Nat.succ_le_succ (Nat.zero_le b)
  have part : ∀ o, YieldsOnly (fun n => n.height ≤ b) (ofStored b o) := ih b (Nat.lt_succ_self b)
  -- Most trees add a step to a single part.
  have around : ∀ (make : Node → Node) (o : Json), (∀ n, (make n).height = n.height + 1) →
      YieldsOnly (fun n => n.height ≤ b + 1) (ofStored b o >>= fun n => .ok (make n)) := by
    intro make o height
    refine (part o).bind fun n fits => .ok ?_
    rw [height]
    exact Nat.succ_le_succ fits
  split
  · exact .ok leaf
  · split
    next => exact (YieldsOnly.any _).bind fun _ _ => .ok leaf
    next =>
      refine (YieldsOnly.any _).bind fun _ _ => (part _).bind fun left first => ?_
      refine (YieldsOnly.any _).bind fun _ _ => (YieldsOnly.any _).bind fun _ _ => ?_
      refine (YieldsOnly.any _).bind fun _ _ => (part _).bind fun right second => .ok ?_
      exact Nat.succ_le_succ (Nat.max_le.mpr ⟨first, second⟩)
    next =>
      refine (YieldsOnly.any _).bind fun _ _ => (YieldsOnly.any _).bind fun operator _ => ?_
      exact (YieldsOnly.any _).bind fun _ _ => around (unary operator) _ fun _ => rfl
    next => exact (YieldsOnly.any _).bind fun _ _ => around grouping _ fun _ => rfl
    next => exact (YieldsOnly.any _).bind fun _ _ => (YieldsOnly.any _).bind fun _ _ => .ok leaf
    next => exact (YieldsOnly.any _).bind fun _ _ => (YieldsOnly.any _).bind fun _ _ => .ok leaf
    next =>
      refine (YieldsOnly.any _).bind fun _ _ => (YieldsOnly.any _).bind fun name _ => ?_
      exact (YieldsOnly.any _).bind fun _ _ => around (assign name) _ fun _ => rfl
    next =>
      refine (YieldsOnly.any _).bind fun _ _ => (YieldsOnly.any _).bind fun name _ => ?_
      exact around (declare name) _ fun _ => rfl
    next => exact (YieldsOnly.any _).bind fun _ _ => around print _ fun _ => rfl
    next => exact (YieldsOnly.any _).bind fun _ _ => around expression _ fun _ => rfl
    next =>
      refine (YieldsOnly.any _).bind fun items _ => ?_
      split
      · exact .error _
      next b =>
        have each := YieldsOnly.mapM (ih b (by omega)) items
        exact each.bind fun _ all => .ok (Nat.succ_le_succ (Nat.succ_le_succ (heights_le all)))
    next => exact .error _
  · exact .error _

end Node

namespace Program

theorem ofStored_height (o : Json) :
    YieldsOnly (fun ns => ∀ n ∈ ns, n.height ≤ nestingLimit) (ofStored o) := by
  unfold ofStored
  split
  · split
    · exact (YieldsOnly.any _).bind fun items _ =>
        YieldsOnly.mapM (Node.ofStored_height nestingLimit) items
    · exact .error _
  · exact .error _

end Program

end Scriptlet
