import Scriptlet.Proofs.Node.Forms
import Scriptlet.Proofs.Run.Endings
import Scriptlet.Proofs.Session.Layout

/-! The rendered text of a script without strings tells all of its trees but the lines. The text has one
form, and a form of a tree that derives from tokens of a text is read back here: its words are tokens
of the kinds that they are scanned as, and the head of a list tells the sort of the tree. A string
would be shown without its quotes, as if it were a name or a number. -/
namespace Scriptlet

namespace Token

/-- The token that a text by itself is, on no line. -/
def ofText (text : List Char) : Token := ⟨.ofText text, String.ofList text, 0⟩

theorem Legible.ofText_lexeme {t : Token} (h : t.Legible) : ofText t.lexeme.toList = t.unplaced := by
  rw [ofText, h.kind, String.ofList_toList, unplaced]

end Token

namespace Form

/-- The tree of a word. -/
def leaf (text : List Char) : Node :=
  if TokenKind.ofText text = .identifier then .reference (.ofText text) else .literal (.ofText text)

/-- The tree of an expression, given the trees of its forms. Only assignments have several forms: the
name, the sign, and those of the value. -/
def joined : List Node → Node
  | [n] => n
  | .reference name :: _ :: ns => .assign name (joined ns)
  | _ => .missing

def operation (operator : Token) : List Node → Node
  | [n] => .unary operator n
  | [m, n] => .binary m operator n
  | _ => .missing

def declared : List Node → Node
  | .reference name :: ns => .declare name (joined ns)
  | _ => .missing

/-- The tree of a list, given its head and the trees of its items. -/
def listed (head : List Char) (items : List Node) : Node :=
  match TokenKind.ofText head with
  | .symbol _ => operation (.ofText head) items
  | .keyword .var => declared items
  | .keyword .print => .print (joined items)
  | _ =>
    if head = "grouping".toList then .grouping (joined items)
    else if head = "expr".toList then .expression (joined items)
    else .block items

mutual

/-- The tree that a form is read back as. -/
def tree : Form → Node
  | word w => leaf w
  | list head items => listed head (trees items)

def trees : List Form → List Node
  | [] => []
  | f :: fs => f.tree :: trees fs

end

theorem trees_append (fs gs : List Form) : trees (fs ++ gs) = trees fs ++ trees gs := by
  induction fs with
  | nil => rfl
  | cons f fs ih => rw [List.cons_append, trees, trees, ih, List.cons_append]

variable {t : Token} {items : List Node}

theorem leaf_of_identifier (legible : t.Legible) (own : t.kind = .identifier) :
    leaf t.lexeme.toList = .reference t.unplaced := by
  rw [leaf, legible.kind, if_pos own, legible.ofText_lexeme]

theorem leaf_of_literal (legible : t.Legible) (own : t.kind ∈ Grammar.literals) :
    leaf t.lexeme.toList = .literal t.unplaced := by
  have other : t.kind ≠ .identifier := by
    intro same
    rw [same] at own
    exact absurd own (by decide)
  rw [leaf, legible.kind, if_neg other, legible.ofText_lexeme]

theorem listed_operator (legible : t.Legible) (sign : t.kind = .symbol s) :
    listed t.lexeme.toList items = operation t.unplaced items := by
  rw [listed, legible.kind, sign, legible.ofText_lexeme]

theorem listed_var : listed "var".toList items = declared items := by
  have kind : TokenKind.ofText "var".toList = .keyword .var := by decide +kernel
  rw [listed, kind]

theorem listed_print : listed "print".toList items = .print (joined items) := by
  have kind : TokenKind.ofText "print".toList = .keyword .print := by decide +kernel
  rw [listed, kind]

/-- The other heads are spelled like names. -/
theorem listed_name {head : List Char} (name : TokenKind.ofText head = .identifier) :
    listed head items =
    if head = "grouping".toList then .grouping (joined items)
    else if head = "expr".toList then .expression (joined items)
    else .block items := by
  rw [listed, name]

theorem listed_grouping : listed "grouping".toList items = .grouping (joined items) := by
  rw [listed_name (by decide +kernel), if_pos rfl]

theorem listed_expr : listed "expr".toList items = .expression (joined items) := by
  rw [listed_name (by decide +kernel), if_neg (by decide), if_pos rfl]

theorem listed_block : listed "block".toList items = .block items := by
  rw [listed_name (by decide +kernel), if_neg (by decide), if_neg (by decide)]

end Form

/-- The tokens of the text that are words are legible. -/
def Token.AllLegible (ts : List Token) : Prop := ∀ t ∈ ts, t.kind.isWord = true → t.Legible

namespace Node

open Form

/-- The tree holds no string. -/
def Unquoted (n : Node) : Prop := ∀ t ∈ n.literals, t.kind ≠ .string

instance (n : Node) : Decidable n.Unquoted :=
  inferInstanceAs (Decidable (∀ t ∈ n.literals, t.kind ≠ .string))

/-- The tree is read back from its forms. -/
structure ReadBack (n : Node) : Prop where
  plain : AllPlain n.forms
  whole : joined (trees n.forms) = n.unplaced

/-- The tree is read back from its form, of which it has one. -/
structure Single (n : Node) : Prop where
  plain : AllPlain n.forms
  alone : trees n.forms = [n.unplaced]

theorem Single.readBack {n : Node} (h : n.Single) : n.ReadBack where
  plain := h.plain
  whole := by rw [h.alone, joined]

theorem Single.both {n : Node} (h : n.Single) {p : Prop} : n.ReadBack ∧ (p → n.Single) :=
  ⟨h.readBack, fun _ => h⟩

variable {t : Token} {m n : Node}

theorem readBack_missing : missing.ReadBack := ⟨trivial, rfl⟩

theorem ReadBack.assign (inner : n.ReadBack) (legible : t.Legible) (own : t.kind = .identifier) :
    (assign t n).ReadBack where
  plain := ⟨legible.unmarked, List.forall_mem_singleton.mpr rfl, inner.plain⟩
  whole := by
    rw [forms, trees, trees, tree, leaf_of_identifier legible own, joined, inner.whole]
    rfl

/-- A form that is a word makes a tree of its own. -/
theorem single_of_word {w : List Char} (forms : n.forms = [.word w])
    (unmarked : ∀ c ∈ w, isMark c = false) (made : leaf w = n.unplaced) : n.Single where
  plain := by
    rw [forms]
    exact ⟨unmarked, trivial⟩
  alone := by rw [forms, trees, trees, tree, made]

theorem single_literal (legible : t.Legible) (own : t.kind ∈ Grammar.literals) :
    (literal t).Single :=
  single_of_word rfl legible.unmarked (leaf_of_literal legible own)

theorem single_reference (legible : t.Legible) (own : t.kind = .identifier) :
    (reference t).Single :=
  single_of_word rfl legible.unmarked (leaf_of_identifier legible own)

/-- A form that is a list makes a tree of its own. -/
theorem single_of_list {head : List Char} {items : List Form} (forms : n.forms = [.list head items])
    (unmarked : ∀ c ∈ head, isMark c = false) (plain : AllPlain items)
    (made : listed head (trees items) = n.unplaced) : n.Single where
  plain := by
    rw [forms]
    exact ⟨⟨unmarked, plain⟩, trivial⟩
  alone := by rw [forms, trees, trees, tree, made]

theorem Single.binary (left : m.Single) (right : n.Single) (legible : t.Legible)
    (sign : t.kind = .symbol s) : (binary m t n).Single := by
  refine single_of_list rfl legible.unmarked (allPlain_append.mpr ⟨left.plain, right.plain⟩) ?_
  rw [trees_append, left.alone, right.alone, listed_operator legible sign]
  rfl

theorem Single.unary (inner : n.Single) (legible : t.Legible) (sign : t.kind = .symbol s) :
    (unary t n).Single := by
  refine single_of_list rfl legible.unmarked inner.plain ?_
  rw [inner.alone, listed_operator legible sign]
  rfl

/-- A tree that shows its one part behind a word. -/
theorem ReadBack.behind (inner : n.ReadBack) {head : List Char} {make : Node → Node}
    (forms : (make n).forms = [.list head n.forms]) (unmarked : head.all (!isMark ·) = true)
    (made : ∀ items, listed head items = make (joined items))
    (placed : (make n).unplaced = make n.unplaced) : (make n).Single := by
  refine single_of_list forms (all_unmarked_iff.mp unmarked) inner.plain ?_
  rw [made, inner.whole, placed]

theorem ReadBack.grouping (inner : n.ReadBack) : (grouping n).Single :=
  inner.behind rfl (by decide) (fun _ => listed_grouping) rfl

theorem ReadBack.print (inner : n.ReadBack) : (print n).Single :=
  inner.behind rfl (by decide) (fun _ => listed_print) rfl

theorem ReadBack.expression (inner : n.ReadBack) : (expression n).Single :=
  inner.behind rfl (by decide) (fun _ => listed_expr) rfl

theorem ReadBack.declare (inner : n.ReadBack) (legible : t.Legible) (own : t.kind = .identifier) :
    (declare t n).Single := by
  refine single_of_list rfl (all_unmarked_iff.mp (by decide)) ⟨legible.unmarked, inner.plain⟩ ?_
  rw [trees, tree, leaf_of_identifier legible own, listed_var, declared, inner.whole]
  rfl

theorem single_block (plain : AllPlain (formsAll ns)) (made : trees (formsAll ns) = ns.map unplaced) :
    (block ns).Single := by
  refine single_of_list rfl (all_unmarked_iff.mp (by decide)) plain ?_
  rw [listed_block, made, unplaced, relabel, relabelAll_eq_map]
  rfl

theorem unquoted_block : (block ns).Unquoted ↔ ∀ n ∈ ns, n.Unquoted := by
  induction ns with
  | nil => simp [Unquoted, literals, literals.literalsAll]
  | cons n ns ih =>
    rw [List.forall_mem_cons, ← ih]
    exact List.forall_mem_append

end Node

namespace Grammar

open Form (AllPlain trees)

theorem Level.isWord {level : Level} (own : s ∈ level.operators) :
    (TokenKind.symbol s).isWord = true := by
  cases level <;> revert own <;> cases s <;> decide

theorem Level.operand_ne_expression (level : Level) : level.operand ≠ .expression := by
  cases level <;> decide

/-- An expression is read back, and from one form unless it is an assignment. -/
theorem Derives.readBack (h : Derives c ts n) (legible : Token.AllLegible ts)
    (unquoted : n.Unquoted) : n.ReadBack ∧ (c ≠ .expression → n.Single) := by
  induction h with
  | assign target sign value ih =>
    obtain ⟨name, rest⟩ := List.forall_mem_cons.mp legible
    have inner := (ih (List.forall_mem_cons.mp rest).2 unquoted).1
    exact ⟨inner.assign (name (by rw [target]; rfl)) target, absurd rfl⟩
  | equality _ ih => exact ⟨(ih legible unquoted).1, absurd rfl⟩
  | @operand _ _ level _ ih =>
    exact ((ih legible unquoted).2 level.operand_ne_expression).both
  | primary _ ih => exact ((ih legible unquoted).2 nofun).both
  | @operation level _ _ _ _ _ _ _ sign own _ left right =>
    obtain ⟨front, back⟩ := List.forall_mem_append.mp legible
    obtain ⟨operator, back⟩ := List.forall_mem_cons.mp back
    obtain ⟨unquoted, unquoted'⟩ := List.forall_mem_append.mp unquoted
    have left := (left front unquoted).2 nofun
    have right := (right back unquoted').2 level.operand_ne_expression
    exact (left.binary right (operator (by rw [sign]; exact Level.isWord own)) sign).both
  | negation sign own _ ih =>
    obtain ⟨operator, rest⟩ := List.forall_mem_cons.mp legible
    have word := (show ∀ s ∈ prefixOperators, (TokenKind.symbol s).isWord = true by decide) _ own
    exact (((ih rest unquoted).2 nofun).unary (operator (by rw [sign]; exact word)) sign).both
  | @literal t own =>
    have unquoted : t.kind ≠ .string := unquoted t (List.mem_singleton.mpr rfl)
    have word := (show ∀ k ∈ literals, k ≠ .string → k.isWord = true by decide) _ own unquoted
    exact (Node.single_literal (List.forall_mem_singleton.mp legible word) own).both
  | reference own =>
    have word := List.forall_mem_singleton.mp legible (by rw [own]; rfl)
    exact (Node.single_reference word own).both
  | grouping _ _ _ ih =>
    obtain ⟨inner, _⟩ := List.forall_mem_append.mp (List.forall_mem_cons.mp legible).2
    exact (ih inner unquoted).1.grouping.both

mutual

/-- A declaration is read back from its one form. -/
theorem Declaration.single : ∀ {ts n}, Declaration gap ts n → Token.AllLegible ts → n.Unquoted →
    n.Single
  | _, _, .bare _ named _, legible, _ => by
    obtain ⟨name, _⟩ := List.forall_mem_cons.mp (List.forall_mem_cons.mp legible).2
    exact Node.readBack_missing.declare (name (by rw [named]; rfl)) named
  | _, _, .initialised _ named _ value _, legible, unquoted => by
    obtain ⟨name, rest⟩ := List.forall_mem_cons.mp (List.forall_mem_cons.mp legible).2
    obtain ⟨inner, _⟩ := List.forall_mem_append.mp (List.forall_mem_cons.mp rest).2
    exact (value.readBack inner unquoted).1.declare (name (by rw [named]; rfl)) named
  | _, _, .print _ value _, legible, unquoted => by
    obtain ⟨inner, _⟩ := List.forall_mem_append.mp (List.forall_mem_cons.mp legible).2
    exact (value.readBack inner unquoted).1.print
  | _, _, .block _ body _, legible, unquoted => by
    obtain ⟨inner, _⟩ := List.forall_mem_append.mp (List.forall_mem_cons.mp legible).2
    obtain ⟨plain, made⟩ := body.readBack inner (Node.unquoted_block.mp unquoted)
    exact Node.single_block plain made
  | _, _, .expression value _, legible, unquoted => by
    obtain ⟨inner, _⟩ := List.forall_mem_append.mp legible
    exact (value.readBack inner unquoted).1.expression

/-- Sequences of declarations are read back one by one. -/
theorem Declarations.readBack : ∀ {ts ns}, Declarations gap ts ns → Token.AllLegible ts →
    (∀ n ∈ ns, n.Unquoted) →
    AllPlain (Node.formsAll ns) ∧ trees (Node.formsAll ns) = ns.map Node.unplaced
  | _, _, .done, _, _ => ⟨trivial, rfl⟩
  | _, _, .next first others, legible, unquoted => by
    obtain ⟨front, back⟩ := List.forall_mem_append.mp legible
    obtain ⟨unquoted, unquoted'⟩ := List.forall_mem_cons.mp unquoted
    have own := first.single front unquoted
    obtain ⟨plain, made⟩ := others.readBack back unquoted'
    refine ⟨Form.allPlain_append.mpr ⟨own.plain, plain⟩, ?_⟩
    rw [Node.formsAll, Form.trees_append, own.alone, made, List.map_cons, List.singleton_append]
  | _, _, .skip _ others, legible, unquoted =>
    others.readBack (List.forall_mem_append.mp legible).2 unquoted

end

end Grammar

namespace Node

/-- The texts of trees, each behind a blank, are those of their forms. -/
theorem behind_of_mapM {ns : List Node} {budget : Nat} {texts : List String}
    (shown : ns.mapM (·.render budget) = .ok texts) :
    Form.behind (formsAll ns) = texts.flatMap (' ' :: ·.toList) := by
  induction ns generalizing texts with
  | nil =>
    cases shown
    rfl
  | cons n ns ih =>
    rw [List.mapM_cons] at shown
    obtain ⟨text, first, shown⟩ := Outcome.bind_eq_ok.mp shown
    obtain ⟨others, rest, made⟩ := Outcome.bind_eq_ok.mp shown
    cases made
    rw [formsAll, Form.behind_append, behind_forms first, ih rest, List.flatMap_cons]

theorem mapM_render_unplaced (budget : Nat) (ns : List Node) :
    (ns.map unplaced).mapM (·.render budget) = ns.mapM (·.render budget) := by
  rw [List.mapM_map]
  exact congrArg ns.mapM (funext fun n => render_relabel (f := Token.unplaced) (fun _ => rfl) n budget)

end Node

namespace Source

theorem readBack {source : String}
    (unquoted : ∀ n ∈ (Program.ofStream (stream source)).statements, n.Unquoted) :
    Form.AllPlain (Node.formsAll (Program.ofStream (stream source)).statements) ∧
      Form.trees (Node.formsAll (Program.ofStream (stream source)).statements) =
        (Program.ofStream (stream source)).statements.map Node.unplaced :=
  (Grammar.statements_derive (stream source)).readBack (fun _ mem => legible_of_mem mem) unquoted

/-- Scripts without strings have the same rendered statements, one by one, exactly if these are the same
trees but for the lines. This holds of malformed scripts too. -/
theorem texts_eq_iff {a b : String} {budget : Nat} {texts texts' : List String}
    (unquoted : ∀ n ∈ (Program.ofStream (stream a)).statements, n.Unquoted)
    (unquoted' : ∀ n ∈ (Program.ofStream (stream b)).statements, n.Unquoted)
    (shown : (Program.ofStream (stream a)).statements.mapM (·.render budget) = .ok texts)
    (shown' : (Program.ofStream (stream b)).statements.mapM (·.render budget) = .ok texts') :
    texts = texts' ↔ (Program.ofStream (stream a)).statements.map Node.unplaced =
      (Program.ofStream (stream b)).statements.map Node.unplaced := by
  obtain ⟨plain, made⟩ := readBack unquoted
  obtain ⟨plain', made'⟩ := readBack unquoted'
  constructor
  · rintro rfl
    have behind := (Node.behind_of_mapM shown).trans (Node.behind_of_mapM shown').symm
    obtain ⟨same, _⟩ := Form.behind_unique plain plain' Form.shut_nil Form.shut_nil
      (congrArg (· ++ []) behind)
    rw [← made, ← made', same]
  · intro same
    have texts := congrArg (List.mapM (·.render budget)) same
    rw [Node.mapM_render_unplaced, Node.mapM_render_unplaced, shown, shown'] at texts
    exact Except.ok.inj texts

/-- The words `x`, `grouping` and `expr` are names, the second statement has no value to print, and
both signs stand in one statement. -/
def crammed : String := "var x;print;x=grouping=-(x- -1);\x7bprint expr;\x7d"

def roomy : String := "var x;\nprint ;\nx = grouping =\n - ( x - - 1 ) ; # \n\x7b print expr ; \x7d \x7d"

def crammedTexts : List String :=
  ["(var x)", "(expr x = grouping = (- (grouping (- x (- 1)))))", "(block (print expr))"]

theorem crammed_roomy : (Program.ofStream (stream crammed)).errors ≠ [] ∧
    (Program.ofStream (stream crammed)).statements.map Node.unplaced =
      (Program.ofStream (stream roomy)).statements.map Node.unplaced := by
  have shown : (Program.ofStream (stream crammed)).statements.mapM (·.render 20) = .ok crammedTexts := by
    decide +kernel
  have shown' : (Program.ofStream (stream roomy)).statements.mapM (·.render 20) = .ok crammedTexts := by
    decide +kernel
  exact ⟨by decide +kernel,
    (texts_eq_iff (by decide +kernel) (by decide +kernel) shown shown').mp rfl⟩

/-- A string may be shown as a name is. -/
example : (Program.ofStream (stream "x;")).statements.mapM (·.render 9) = .ok ["(expr x)"] ∧
    (Program.ofStream (stream "\"x\";")).statements.mapM (·.render 9) = .ok ["(expr x)"] := by
  decide +kernel

end Source

end Scriptlet
