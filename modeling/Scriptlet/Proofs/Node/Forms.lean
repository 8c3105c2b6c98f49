import Scriptlet.Node.Render
import Scriptlet.Proofs.Outcome
import Scriptlet.Proofs.Run.Steps
import Scriptlet.Proofs.Token.Kinds

/-! Rendered forms as nested lists of words. The text of a form sets its words apart by blanks and its
lists by parentheses, so if no word holds either, the text determines the form. -/
namespace Scriptlet

open Outcome (bind_eq_ok)

/-- A word, or a list behind the word that heads it. -/
inductive Form where
  | word (text : List Char)
  | list (head : List Char) (items : List Form)

namespace Form

mutual

def text : Form → List Char
  | word w => w
  | list head items => '(' :: (head ++ (behind items ++ [')']))

/-- The texts of forms, each behind a blank. -/
def behind : List Form → List Char
  | [] => []
  | f :: fs => ' ' :: (f.text ++ behind fs)

end

mutual

/-- No word of the form holds a mark. -/
def Plain : Form → Prop
  | word w => ∀ c ∈ w, isMark c = false
  | list head items => (∀ c ∈ head, isMark c = false) ∧ AllPlain items

def AllPlain : List Form → Prop
  | [] => True
  | f :: fs => f.Plain ∧ AllPlain fs

end

theorem behind_append (fs gs : List Form) : behind (fs ++ gs) = behind fs ++ behind gs := by
  induction fs with
  | nil => rfl
  | cons f fs ih => simp only [List.cons_append, behind, ih, List.append_assoc]

theorem allPlain_append {fs gs : List Form} : AllPlain (fs ++ gs) ↔ AllPlain fs ∧ AllPlain gs := by
  induction fs with
  | nil => simp [AllPlain]
  | cons f fs ih => simp only [List.cons_append, AllPlain, ih, and_assoc]

/-- What may stand behind a form: another one, the end of a list, or nothing. -/
def Ends (rest : List Char) : Prop := ∀ c ∈ rest.head?, c = ' ' ∨ c = ')'

/-- What may stand behind the last form of a list. -/
def Shut (rest : List Char) : Prop := ∀ c ∈ rest.head?, c = ')'

variable {x y : List Char}

theorem Shut.ends (shut : Shut x) : Ends x := fun c first => .inr (shut c first)

theorem shut_nil : Shut [] := by
  intro c first
  cases first

theorem shut_closing (x : List Char) : Shut (')' :: x) := by
  intro c first
  cases first
  rfl

theorem ends_behind (fs : List Form) (shut : Shut x) : Ends (behind fs ++ x) := by
  cases fs with
  | nil => exact shut.ends
  | cons f fs =>
    intro c first
    cases first
    exact .inl rfl

/-- A word without marks ends at the next mark. -/
theorem word_unique {w v : List Char} (plain : ∀ c ∈ w, isMark c = false)
    (plain' : ∀ c ∈ v, isMark c = false) (ends : Ends x) (ends' : Ends y)
    (same : w ++ x = v ++ y) : w = v ∧ x = y := by
  have spans : ∀ {w x}, (∀ c ∈ w, isMark c = false) → Ends x →
      (w ++ x).takeWhile (!isMark ·) = w ∧ (w ++ x).dropWhile (!isMark ·) = x := by
    intro w x plain ends
    refine span_of_ends (all_unmarked_iff.mpr plain) x fun c first => ?_
    rcases ends c first with rfl | rfl <;> rfl
  obtain ⟨front, back⟩ := spans plain ends
  obtain ⟨front', back'⟩ := spans plain' ends'
  rw [same] at front back
  exact ⟨front.symm.trans front', back.symm.trans back'⟩

/-- A word is no list. -/
theorem word_ne_list {w items : List Char} (plain : ∀ c ∈ w, isMark c = false) (ends : Ends x) :
    w ++ x ≠ '(' :: items := by
  intro same
  cases w with
  | nil =>
    rw [List.nil_append] at same
    rcases ends '(' (by rw [same]; rfl) with other | other <;> cases other
  | cons c w =>
    cases same
    cases plain '(' List.mem_cons_self

mutual

/-- A form is read off the head of a text in one way only. -/
theorem text_unique : ∀ {f g : Form} {x y : List Char}, f.Plain → g.Plain → Ends x → Ends y →
    f.text ++ x = g.text ++ y → f = g ∧ x = y
  | .word w, .word v, x, y, plain, plain', ends, ends', same => by
    obtain ⟨rfl, rest⟩ := word_unique plain plain' ends ends' same
    exact ⟨rfl, rest⟩
  | .word w, .list head items, x, y, plain, _, ends, _, same =>
    absurd same (word_ne_list plain ends)
  | .list head items, .word w, x, y, _, plain', _, ends', same =>
    absurd same.symm (word_ne_list plain' ends')
  | .list head items, .list head' items', x, y, plain, plain', ends, ends', same => by
    simp only [text, List.cons_append, List.append_assoc, List.nil_append, List.cons.injEq,
      true_and] at same
    obtain ⟨rfl, rest⟩ := word_unique plain.1 plain'.1 (ends_behind items (shut_closing x))
      (ends_behind items' (shut_closing y)) same
    obtain ⟨rfl, left⟩ := behind_unique plain.2 plain'.2 (shut_closing x) (shut_closing y) rest
    exact ⟨rfl, (List.cons.inj left).2⟩

theorem behind_unique : ∀ {fs gs : List Form} {x y : List Char}, AllPlain fs → AllPlain gs →
    Shut x → Shut y → behind fs ++ x = behind gs ++ y → fs = gs ∧ x = y
  | [], [], x, y, _, _, _, _, same => ⟨rfl, same⟩
  | [], g :: gs, x, y, _, _, shut, _, same => by
    cases shut ' ' (by rw [← List.nil_append x, ← behind, same]; rfl)
  | f :: fs, [], x, y, _, _, _, shut', same => by
    cases shut' ' ' (by rw [← List.nil_append y, ← behind, ← same]; rfl)
  | f :: fs, g :: gs, x, y, plain, plain', shut, shut', same => by
    simp only [behind, List.cons_append, List.append_assoc, List.cons.injEq, true_and] at same
    obtain ⟨rfl, rest⟩ := text_unique plain.1 plain'.1 (ends_behind fs shut) (ends_behind gs shut')
      same
    obtain ⟨rfl, left⟩ := behind_unique plain.2 plain'.2 shut shut' rest
    exact ⟨rfl, left⟩

end

end Form

namespace Node

mutual

/-- The rendered form of a tree. An assignment is a sequence of forms, and what is no tree of its own
has none. -/
def forms : Node → List Form
  | missing | token _ => []
  | literal t | reference t => [.word t.lexeme.toList]
  | binary left operator right => [.list operator.lexeme.toList (left.forms ++ right.forms)]
  | unary operator operand => [.list operator.lexeme.toList operand.forms]
  | grouping inner => [.list "grouping".toList inner.forms]
  | assign name value => .word name.lexeme.toList :: .word ['='] :: value.forms
  | declare name initial => [.list "var".toList (.word name.lexeme.toList :: initial.forms)]
  | print value => [.list "print".toList value.forms]
  | expression value => [.list "expr".toList value.forms]
  | block statements => [.list "block".toList (formsAll statements)]

def formsAll : List Node → List Form
  | [] => []
  | n :: ns => n.forms ++ formsAll ns

end

open Form (behind)

mutual

/-- The rendered text of a tree is that of its form. -/
theorem behind_forms : ∀ {n : Node} {budget : Nat} {text : String}, n.render budget = .ok text →
    behind n.forms = ' ' :: text.toList
  | n, 0, text, rendered => by
    rw [render.eq_def] at rendered
    cases rendered
  | .missing, b + 1, text, rendered | .token t, b + 1, text, rendered => by cases rendered
  | .literal t, b + 1, text, rendered | .reference t, b + 1, text, rendered => by
    cases rendered
    simp [forms, behind, Form.text]
  | .binary left operator right, b + 1, text, rendered => by
    obtain ⟨l, first, rendered⟩ := bind_eq_ok.mp rendered
    obtain ⟨r, second, made⟩ := bind_eq_ok.mp rendered
    cases made
    simp [forms, behind, Form.text, Form.behind_append, behind_forms first, behind_forms second]
  | .unary operator operand, b + 1, text, rendered => by
    obtain ⟨inner, first, made⟩ := bind_eq_ok.mp rendered
    cases made
    simp [forms, behind, Form.text, behind_forms first]
  | .grouping inner, b + 1, text, rendered => by
    obtain ⟨inner, first, made⟩ := bind_eq_ok.mp rendered
    cases made
    simp [forms, behind, Form.text, behind_forms first]
  | .assign name value, b + 1, text, rendered => by
    obtain ⟨inner, first, made⟩ := bind_eq_ok.mp rendered
    cases made
    simp [forms, behind, Form.text, behind_forms first]
  | .declare name initial, b + 1, text, rendered => by
    by_cases given : initial = .missing
    · subst given
      cases rendered
      simp [forms, behind, Form.text]
    · rw [render_declare given] at rendered
      obtain ⟨inner, first, made⟩ := bind_eq_ok.mp rendered
      cases made
      simp [forms, behind, Form.text, behind_forms first]
  | .print value, b + 1, text, rendered => by
    obtain ⟨inner, first, made⟩ := bind_eq_ok.mp rendered
    cases made
    simp [forms, behind, Form.text, behind_forms first]
  | .expression value, b + 1, text, rendered => by
    obtain ⟨inner, first, made⟩ := bind_eq_ok.mp rendered
    cases made
    simp [forms, behind, Form.text, behind_forms first]
  | .block statements, b + 1, text, rendered => by
    obtain ⟨inner, all, made⟩ := bind_eq_ok.mp rendered
    cases made
    simp [forms, behind, Form.text, behind_formsAll all]

theorem behind_formsAll : ∀ {ns : List Node} {budget : Nat} {text : String},
    renderAll budget ns = .ok text → behind (formsAll ns) = text.toList
  | [], _, text, rendered => by
    cases rendered
    rfl
  | n :: ns, budget, text, rendered => by
    obtain ⟨first, own, rendered⟩ := bind_eq_ok.mp rendered
    obtain ⟨others, all, made⟩ := bind_eq_ok.mp rendered
    cases made
    simp [formsAll, Form.behind_append, behind_forms own, behind_formsAll all]

end

end Node

end Scriptlet
