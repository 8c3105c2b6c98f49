import Scriptlet.Node.Stored
import Scriptlet.Proofs.Json.RoundTrip
import Scriptlet.Proofs.Outcome

/-! Stored trees. Any tree, a well-formed one or not, is loaded again as it was stored if the loader
goes as deep as the tree does, and what is stored of it can be written as text. -/
namespace Scriptlet

namespace Stored

open Outcome (ok_bind)

theorem kind_stored (k : TokenKind) : TokenKind.ofStored (.string k.code) = .ok k := by
  rw [TokenKind.ofStored, TokenKind.ofCode?_code]

theorem token_stored (t : Token) : token t.stored = .ok t := by
  simp only [Token.stored, token, field, List.lookup_cons, String.reduceBEq, ok_bind, kind_stored,
    text, whole]
  rfl

end Stored

namespace Node

open Outcome (ok_bind)

mutual

theorem ofStored_stored : ∀ (n : Node) (budget : Nat), n.height ≤ budget →
    ofStored budget n.stored = .ok n
  | .missing, b + 1, _ => rfl
  | .token t, b + 1, _ => by
    have same := Stored.token_stored t
    rw [stored]
    rw [Token.stored] at same ⊢
    simp only [ofStored, List.lookup_cons, String.reduceBEq, same]
    rfl
  | .literal t, b + 1, _ => by
    simp only [stored, tagged, ofStored, List.lookup_cons, String.reduceBEq, Stored.field, ok_bind,
      Stored.token_stored]
    rfl
  | .reference name, b + 1, _ => by
    simp only [stored, tagged, ofStored, List.lookup_cons, String.reduceBEq, Stored.field, ok_bind,
      Stored.token_stored]
    rfl
  | .binary left operator right, b + 1, fits => by
    have bounds := Nat.le_of_succ_le_succ fits
    have first := ofStored_stored left b (Nat.le_trans (Nat.le_max_left _ _) bounds)
    have second := ofStored_stored right b (Nat.le_trans (Nat.le_max_right _ _) bounds)
    simp only [stored, tagged, ofStored, List.lookup_cons, String.reduceBEq, Stored.field, ok_bind,
      Stored.token_stored, first, second]
    rfl
  | .unary operator operand, b + 1, fits => by
    have inner := ofStored_stored operand b (Nat.le_of_succ_le_succ fits)
    simp only [stored, tagged, ofStored, List.lookup_cons, String.reduceBEq, Stored.field, ok_bind,
      Stored.token_stored, inner]
    rfl
  | .grouping n, b + 1, fits => by
    have inner := ofStored_stored n b (Nat.le_of_succ_le_succ fits)
    simp only [stored, tagged, ofStored, List.lookup_cons, String.reduceBEq, Stored.field, ok_bind,
      inner]
    rfl
  | .assign name value, b + 1, fits => by
    have inner := ofStored_stored value b (Nat.le_of_succ_le_succ fits)
    simp only [stored, tagged, ofStored, List.lookup_cons, String.reduceBEq, Stored.field, ok_bind,
      Stored.token_stored, inner]
    rfl
  | .declare name initial, b + 1, fits => by
    have inner := ofStored_stored initial b (Nat.le_of_succ_le_succ fits)
    simp only [stored, tagged, ofStored, List.lookup_cons, String.reduceBEq, Stored.field, ok_bind,
      Stored.token_stored, Option.getD_some, inner]
    rfl
  | .print value, b + 1, fits => by
    have inner := ofStored_stored value b (Nat.le_of_succ_le_succ fits)
    simp only [stored, tagged, ofStored, List.lookup_cons, String.reduceBEq, Stored.field, ok_bind,
      inner]
    rfl
  | .expression value, b + 1, fits => by
    have inner := ofStored_stored value b (Nat.le_of_succ_le_succ fits)
    simp only [stored, tagged, ofStored, List.lookup_cons, String.reduceBEq, Stored.field, ok_bind,
      inner]
    rfl
  | .block statements, b + 2, fits => by
    have inner := mapM_ofStored_stored statements b
      (Nat.le_of_succ_le_succ (Nat.le_of_succ_le_succ fits))
    simp only [stored, tagged, ofStored, List.lookup_cons, String.reduceBEq, Stored.sequence,
      ok_bind, inner]
    rfl

theorem mapM_ofStored_stored : ∀ (ns : List Node) (budget : Nat), height.heights ns ≤ budget →
    (storedAll ns).mapM (ofStored budget) = .ok ns
  | [], _, _ => rfl
  | n :: ns, budget, fits => by
    have first := ofStored_stored n budget (Nat.le_trans (Nat.le_max_left _ _) fits)
    have others := mapM_ofStored_stored ns budget (Nat.le_trans (Nat.le_max_right _ _) fits)
    rw [storedAll, List.mapM_cons, first, ok_bind, others]
    rfl

end

section Depth

open Json (Fits)

variable {d : Nat}

theorem fits_token (t : Token) : Fits (d + 1) t.stored := by
  refine .object (by simp [Assoc.keys]) ?_
  intro field mem
  simp only [List.mem_cons, List.not_mem_nil, or_false] at mem
  rcases mem with rfl | rfl | rfl | rfl
  · exact .string
  · exact .string
  · exact .string
  · exact .int

theorem fits_tagged {fields : Json.Fields} (sort : String)
    (distinct : ("type" :: Assoc.keys fields).Nodup) (all : ∀ field ∈ fields, Fits d field.2) :
    Fits (d + 1) (tagged sort fields) := by
  refine .object distinct ?_
  intro field mem
  rcases List.mem_cons.mp mem with rfl | mem
  · exact .string
  · exact all field mem

/-- A tree with one part. -/
theorem fits_single {key : String} {value : Json} (sort : String) (other : "type" ≠ key)
    (fits : Fits d value) : Fits (d + 1) (tagged sort [(key, value)]) := by
  refine fits_tagged sort (by simpa [Assoc.keys] using other) ?_
  intro field mem
  rw [List.mem_singleton.mp mem]
  exact fits

/-- A tree with two parts. -/
theorem fits_pair {key key' : String} {value value' : Json} (sort : String)
    (distinct : ["type", key, key'].Nodup) (fits : Fits d value) (fits' : Fits d value') :
    Fits (d + 1) (tagged sort [(key, value), (key', value')]) := by
  refine fits_tagged sort distinct ?_
  intro field mem
  rcases List.mem_cons.mp mem with rfl | mem
  · exact fits
  · rw [List.mem_singleton.mp mem]
    exact fits'

mutual

/-- The stored form of a tree nests little deeper than the tree. -/
theorem fits_stored : ∀ n : Node, Fits (n.height + 1) n.stored
  | .missing => .null
  | .token t => fits_token t
  | .literal t => fits_single _ (by decide) (fits_token t)
  | .reference name => fits_single _ (by decide) (fits_token name)
  | .binary left operator right => by
    have first := (fits_stored left).mono (Nat.succ_le_succ (Nat.le_max_left _ right.height))
    have second := (fits_stored right).mono (Nat.succ_le_succ (Nat.le_max_right left.height _))
    refine fits_tagged _ (by simp [Assoc.keys]) ?_
    intro field mem
    simp only [List.mem_cons, List.not_mem_nil, or_false] at mem
    rcases mem with rfl | rfl | rfl
    · exact first
    · exact fits_token operator
    · exact second
  | .unary operator operand => fits_pair _ (by decide) (fits_token operator) (fits_stored operand)
  | .grouping inner => fits_single _ (by decide) (fits_stored inner)
  | .assign name value => fits_pair _ (by decide) (fits_token name) (fits_stored value)
  | .declare name initial => fits_pair _ (by decide) (fits_token name) (fits_stored initial)
  | .print value => fits_single _ (by decide) (fits_stored value)
  | .expression value => fits_single _ (by decide) (fits_stored value)
  | .block statements => fits_single _ (by decide) (.array (fits_storedAll statements))

theorem fits_storedAll : ∀ (ns : List Node), ∀ item ∈ storedAll ns,
    Fits (height.heights ns + 1) item
  | n :: ns, item, mem => by
    rw [storedAll, List.mem_cons] at mem
    rcases mem with rfl | mem
    · exact (fits_stored n).mono (Nat.succ_le_succ (Nat.le_max_left _ _))
    · exact (fits_storedAll ns item mem).mono (Nat.succ_le_succ (Nat.le_max_right _ _))

end

end Depth

theorem storedAll_eq_map (ns : List Node) : storedAll ns = ns.map stored := by
  induction ns with
  | nil => rfl
  | cons n ns ih => rw [storedAll, ih, List.map_cons]

theorem heights_le {ns : List Node} {bound : Nat} (all : ∀ n ∈ ns, n.height ≤ bound) :
    height.heights ns ≤ bound := by
  induction ns with
  | nil => exact Nat.zero_le bound
  | cons n ns ih =>
    exact Nat.max_le.mpr ⟨all n List.mem_cons_self,
      ih fun m mem => all m (List.mem_cons_of_mem _ mem)⟩

end Node

namespace Program

variable {statements : List Node}

/-- A program within the limit on nesting is loaded as it was stored. -/
theorem ofStored_stored (shallow : ∀ n ∈ statements, n.height ≤ nestingLimit) :
    ofStored (stored statements) = .ok statements := by
  have body := Node.mapM_ofStored_stored statements nestingLimit (Node.heights_le shallow)
  rw [Node.storedAll_eq_map] at body
  simp only [stored, ofStored, List.lookup_cons, String.reduceBEq, Stored.sequence]
  exact body

theorem fits_stored (shallow : ∀ n ∈ statements, n.height ≤ nestingLimit) :
    Json.Fits (nestingLimit + 3) (stored statements) := by
  have body : Json.Fits (nestingLimit + 2) (.array (statements.map Node.stored)) := by
    rw [← Node.storedAll_eq_map]
    exact .array fun item mem => (Node.fits_storedAll statements item mem).mono
      (Nat.succ_le_succ (Node.heights_le shallow))
  refine .object (by simp [Assoc.keys]) ?_
  intro field mem
  simp only [List.mem_cons, List.not_mem_nil, or_false] at mem
  rcases mem with rfl | rfl
  · exact .string
  · exact body

end Program

end Scriptlet
