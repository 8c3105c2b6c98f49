import Scriptlet.Proofs.Node.Reloading

/-! What the loader accepts. It loads a tree from the extensions of the tree's stored form and from
nothing else: fields that it does not ask for may stand beside the ones that it does, and a few may
be left out. Whatever else it is given lacks a key or is of the wrong sort. -/
namespace Scriptlet

open Outcome (FailsOnly YieldsOnly bind_eq_ok bind_eq_error ok_bind)

namespace Stored

/-- Fields that may be left out: an initial value that is null, and statements if there are none. For
these any empty collection may stand, too. -/
def Lapsed (key : String) (given : Option Json) (j : Json) : Prop :=
  key = "initializer" ∧ given = none ∧ j = .null ∨
    key = "statements" ∧ j = .array [] ∧
      (given = none ∨ given = some (.string "") ∨ given = some (.object []))

/-- The fields that hold a token. What sort of object it says it is does not matter there. -/
def tokenFields : List String := ["operator", "name", "token"]

mutual

/-- One value extends another, whose sort it has to name if it is `tagged`: an object has every field
of the other, or may do without, and each of them extends the other's. -/
def Extends (tagged : Bool) (o : Json) : Json → Prop
  | .object fields => ∃ given, o = .object given ∧ Supplies tagged given fields
  | .array items => ∃ others, o = .array others ∧ ExtendsAll others items
  | j => o = j

def ExtendsAll (os : List Json) : List Json → Prop
  | [] => os = []
  | j :: js => ∃ o others, os = o :: others ∧ Extends true o j ∧ ExtendsAll others js

def Supplies (tagged : Bool) (given : Json.Fields) : Json.Fields → Prop
  | [] => True
  | (key, j) :: fields =>
    (tagged = false ∧ key = "type" ∨ Lapsed key (given.lookup key) j ∨
      ∃ o, given.lookup key = some o ∧ Extends (!tokenFields.contains key) o j) ∧
    Supplies tagged given fields

end

variable {tagged : Bool} {given fields : Json.Fields} {key : String} {o j : Json}

theorem extends_string {s : String} : Extends tagged o (.string s) ↔ o = .string s := by
  simp only [Extends]

theorem extends_int {n : Int} : Extends tagged o (.int n) ↔ o = .int n := by simp only [Extends]

theorem extends_object : Extends tagged o (.object fields) ↔
    ∃ given, o = .object given ∧ Supplies tagged given fields := by
  simp only [Extends]

theorem extends_array {items : List Json} : Extends tagged o (.array items) ↔
    ∃ others, o = .array others ∧ ExtendsAll others items := by
  simp only [Extends]

theorem extends_null : Extends tagged .null j ↔ j = .null := by
  cases j <;> simp [Extends]

theorem supplies_nil : Supplies tagged given [] ↔ True := by simp only [Supplies]

/-- Most fields have to be there. -/
theorem supplies_cons (asked : (tagged || key != "type") = true)
    (needed : key ≠ "initializer" ∧ key ≠ "statements") :
    Supplies tagged given ((key, j) :: fields) ↔
      (∃ o, given.lookup key = some o ∧ Extends (!tokenFields.contains key) o j) ∧
        Supplies tagged given fields := by
  have present : ¬ Lapsed key (given.lookup key) j := by
    rintro (⟨initial, _⟩ | ⟨statements, _⟩)
    · exact needed.1 initial
    · exact needed.2 statements
  have own : ¬ (tagged = false ∧ key = "type") := by
    rintro ⟨rfl, rfl⟩
    cases asked
  simp only [Supplies, present, own, false_or]

theorem supplies_sort {s : String} :
    Supplies false given (("type", .string s) :: fields) ↔ Supplies false given fields := by
  simp [Supplies]

theorem field_eq_ok : field given key = .ok o ↔ given.lookup key = some o := by
  unfold field
  cases given.lookup key <;> simp

theorem text_eq_ok {s : String} : text o = .ok s ↔ o = .string s := by
  cases o <;> simp [text]

theorem whole_eq_ok {n : Int} : whole o = .ok n ↔ o = .int n := by
  cases o <;> simp [whole]

theorem text_eq_error {e : StoredFault} :
    text o = .error e ↔ e = .tokenField ∧ ∀ s, o ≠ .string s := by
  cases o <;> simp [text, eq_comm]

theorem whole_eq_error {e : StoredFault} :
    whole o = .error e ↔ e = .tokenField ∧ ∀ n, o ≠ .int n := by
  cases o <;> simp [whole, eq_comm]

theorem kind_eq_ok {k : TokenKind} : TokenKind.ofStored o = .ok k ↔ o = .string k.code := by
  cases o with
  | string code =>
    simp only [TokenKind.ofStored, Json.string.injEq, ← TokenKind.ofCode?_eq_some_iff.trans eq_comm]
    cases TokenKind.ofCode? code <;> simp
  | _ => simp [TokenKind.ofStored]

theorem extends_token {t : Token} : Extends false o t.stored ↔ ∃ given, o = .object given ∧
    given.lookup "token_type" = some (.string t.kind.code) ∧
    given.lookup "lexeme" = some (.string t.lexeme) ∧ given.lookup "line" = some (.int t.line) := by
  simp [Token.stored, extends_object, supplies_cons, supplies_sort, supplies_nil, extends_string,
    extends_int]

/-- A token is loaded from the extensions of its stored form. -/
theorem token_eq_ok {t : Token} : token o = .ok t ↔ Extends false o t.stored := by
  rw [extends_token]
  constructor
  · intro read
    cases o with
    | object fields =>
      simp only [token, bind_eq_ok, field_eq_ok, text_eq_ok, whole_eq_ok, kind_eq_ok] at read
      obtain ⟨_, kind, k, rfl, _, lexeme, s, rfl, _, line, l, rfl, made⟩ := read
      cases made
      exact ⟨fields, rfl, kind, lexeme, line⟩
    | _ => cases read
  · rintro ⟨given, rfl, kind, lexeme, line⟩
    simp only [token, bind_eq_ok, field_eq_ok, text_eq_ok, whole_eq_ok, kind_eq_ok]
    exact ⟨_, kind, _, rfl, _, lexeme, _, rfl, _, line, _, rfl, rfl⟩

end Stored

namespace Node

open Stored

section Parts

variable {o : Json} {given fields : Json.Fields} {key : String}

/-- The value of a field extends what is stored of a tree. -/
def HasTree (given : Json.Fields) (key : String) (n : Node) : Prop :=
  ∃ o, given.lookup key = some o ∧ Extends true o n.stored

/-- The value of a field extends what is stored of a token, but for the sort that it names. -/
def HasToken (given : Json.Fields) (key : String) (t : Token) : Prop :=
  ∃ o, given.lookup key = some o ∧ Extends false o t.stored

theorem extends_missing : Extends true o missing.stored ↔ o = .null := by
  simp only [stored, Extends]

/-- A token in the place of a tree has to name its sort. -/
theorem extends_whole_token {t : Token} : Extends true o (token t).stored ↔ ∃ given,
    o = .object given ∧ given.lookup "type" = some (.string "Token") ∧ Extends false o t.stored := by
  constructor
  · intro own
    simp [stored, Token.stored, extends_object, supplies_cons, supplies_nil, extends_string,
      extends_int, tokenFields] at own
    obtain ⟨given, rfl, sort, own⟩ := own
    exact ⟨given, rfl, sort, extends_token.mpr ⟨given, rfl, own⟩⟩
  · rintro ⟨given, rfl, sort, own⟩
    simpa [stored, Token.stored, extends_object, supplies_cons, supplies_sort, supplies_nil,
      extends_string, extends_int, tokenFields, sort] using own

theorem extends_tagged {sort : String} : Extends true o (tagged sort fields) ↔ ∃ given,
    o = .object given ∧ given.lookup "type" = some (.string sort) ∧ Supplies true given fields := by
  simp [tagged, extends_object, supplies_cons, extends_string, tokenFields]

theorem supplies_tree (own : tokenFields.contains key = false)
    (needed : key ≠ "initializer" ∧ key ≠ "statements") {n : Node} :
    Supplies true given ((key, n.stored) :: fields) ↔
      HasTree given key n ∧ Supplies true given fields := by
  rw [supplies_cons rfl needed, own]
  rfl

theorem supplies_token (own : tokenFields.contains key = true) {t : Token} :
    Supplies true given ((key, t.stored) :: fields) ↔
      HasToken given key t ∧ Supplies true given fields := by
  have needed : key ≠ "initializer" ∧ key ≠ "statements" := by
    constructor
    · rintro rfl
      cases own
    · rintro rfl
      cases own
  rw [supplies_cons rfl needed, own]
  rfl

/-- An initial value that is left out is null. -/
theorem supplies_initial {n : Node} : Supplies true given [("initializer", n.stored)] ↔
    Extends true ((given.lookup "initializer").getD .null) n.stored := by
  simp only [Supplies, and_true]
  constructor
  · rintro (⟨same, _⟩ | (⟨_, gone, null⟩ | ⟨other, _⟩) | ⟨o, there, own⟩)
    · cases same
    · rw [gone, Option.getD_none, extends_null]
      exact null
    · exact absurd other (by decide)
    · rw [there]
      exact own
  · intro own
    cases there : given.lookup "initializer" with
    | none =>
      rw [there, Option.getD_none, extends_null] at own
      exact .inr (.inl (.inl ⟨rfl, rfl, own⟩))
    | some o =>
      rw [there] at own
      exact .inr (.inr ⟨o, rfl, own⟩)

theorem extendsAll_nil {items : List Json} : ExtendsAll [] items ↔ items = [] := by
  cases items <;> simp [ExtendsAll]

theorem supplies_statements {items : List Json} :
    Supplies true given [("statements", .array items)] ↔
      ∃ others, Stored.sequence (given.lookup "statements") = .ok others ∧ ExtendsAll others items := by
  simp only [Supplies, and_true]
  constructor
  · rintro (⟨same, _⟩ | (⟨other, _⟩ | ⟨_, none, empty⟩) | ⟨o, there, own⟩)
    · cases same
    · exact absurd other (by decide)
    · cases none
      refine ⟨[], ?_, extendsAll_nil.mpr rfl⟩
      rcases empty with gone | text | object
      · rw [gone, Stored.sequence]
      · rw [text]
        rfl
      · rw [object, Stored.sequence]
    · obtain ⟨others, rfl, all⟩ := extends_array.mp own
      exact ⟨others, by rw [there, Stored.sequence], all⟩
  · rintro ⟨others, read, all⟩
    have lapsed (empty : others = []) : items = [] := extendsAll_nil.mp (empty ▸ all)
    generalize given.lookup "statements" = o at read
    unfold Stored.sequence at read
    split at read
    next =>
      cases read
      exact .inr (.inl (.inr ⟨rfl, congrArg _ (lapsed rfl), .inl rfl⟩))
    next =>
      cases read
      exact .inr (.inr ⟨_, rfl, extends_array.mpr ⟨_, rfl, all⟩⟩)
    next =>
      split at read
      next empty =>
        cases read
        exact .inr (.inl (.inr ⟨rfl, congrArg _ (lapsed rfl), .inr (.inl (by rw [empty]))⟩))
      next => cases read
    next =>
      cases read
      exact .inr (.inl (.inr ⟨rfl, congrArg _ (lapsed rfl), .inr (.inr rfl)⟩))
    next => cases read
    next => cases read

end Parts

section Loading

variable {b : Nat} {given : Json.Fields} {key : String}

/-- What is loaded if it keeps within a limit on nesting. -/
def limited (height budget : Nat) (a : α) : Except StoredFault α :=
  if height ≤ budget then .ok a else .error .tooDeep

theorem limited_succ (h k : Nat) (a : α) : limited (h + 1) (k + 1) a = limited h k a := by
  simp only [limited, Nat.add_le_add_iff_right]

theorem limited_map (h k : Nat) (a : α) (f : α → β) :
    (do return f (← limited h k a)) = limited h k (f a) := by
  unfold limited
  split <;> rfl

theorem limited_max (h h' k : Nat) (a : α) (a' : α') (f : α → α' → β) :
    (do return f (← limited h k a) (← limited h' k a')) = limited (max h h') k (f a a') := by
  by_cases first : h ≤ k
  · by_cases second : h' ≤ k
    · simp only [limited, first, second, Nat.max_le, and_self, if_true]
      rfl
    · simp only [limited, first, second, Nat.max_le, and_false, if_true, if_false]
      rfl
  · simp only [limited, first, Nat.max_le, false_and, if_false]
    rfl

theorem read_tree {f : Node → Except StoredFault α} {n : Node} (has : HasTree given key n)
    (loads : ∀ o, Extends true o n.stored → ofStored b o = limited n.height b n) :
    (do f (← ofStored b (← field given key))) = limited n.height b n >>= f := by
  obtain ⟨o, there, own⟩ := has
  rw [field_eq_ok.mpr there, ok_bind, loads o own]

theorem read_token {f : Token → Except StoredFault α} {t : Token} (has : HasToken given key t) :
    (do f (← Stored.token (← field given key))) = f t := by
  obtain ⟨o, there, own⟩ := has
  rw [field_eq_ok.mpr there, ok_bind, token_eq_ok.mpr own, ok_bind]

mutual

/-- The extensions of what is stored of a tree are loaded as the tree, if it is not too deep. -/
theorem ofStored_of_extends : ∀ (n : Node) (budget : Nat) (o : Json), Extends true o n.stored →
    ofStored budget o = limited n.height budget n
  | n, 0, o, _ => by
    have deep : ¬ n.height ≤ 0 := by cases n <;> simp [height]
    rw [ofStored, limited, if_neg deep]
  | .missing, b + 1, o, own => by
    obtain rfl := extends_missing.mp own
    rw [ofStored]
    exact (limited_succ 0 b missing).symm
  | .token t, b + 1, o, own => by
    obtain ⟨given, rfl, sort, own⟩ := extends_whole_token.mp own
    simp only [ofStored, sort, token_eq_ok.mpr own]
    exact (limited_succ 0 b (token t)).symm
  | .literal t, b + 1, o, own => by
    obtain ⟨given, rfl, sort, has⟩ := extends_tagged.mp own
    simp (disch := decide) only [supplies_token, supplies_nil, and_true] at has
    simp only [ofStored, sort, read_token has]
    exact (limited_succ 0 b (literal t)).symm
  | .reference name, b + 1, o, own => by
    obtain ⟨given, rfl, sort, has⟩ := extends_tagged.mp own
    simp (disch := decide) only [supplies_token, supplies_nil, and_true] at has
    simp only [ofStored, sort, read_token has]
    exact (limited_succ 0 b (reference name)).symm
  | .binary left operator right, b + 1, o, own => by
    obtain ⟨given, rfl, sort, has⟩ := extends_tagged.mp own
    simp (disch := decide) only [supplies_tree, supplies_token, supplies_nil, and_true] at has
    simp only [ofStored, sort, read_tree has.1 (ofStored_of_extends left b), read_token has.2.1,
      read_tree has.2.2 (ofStored_of_extends right b)]
    rw [height, limited_succ]
    exact limited_max left.height right.height b left right (binary · operator ·)
  | .unary operator operand, b + 1, o, own => by
    obtain ⟨given, rfl, sort, has⟩ := extends_tagged.mp own
    simp (disch := decide) only [supplies_tree, supplies_token, supplies_nil, and_true] at has
    simp only [ofStored, sort, read_token has.1, read_tree has.2 (ofStored_of_extends operand b)]
    rw [height, limited_succ]
    exact limited_map operand.height b operand (unary operator)
  | .grouping inner, b + 1, o, own => by
    obtain ⟨given, rfl, sort, has⟩ := extends_tagged.mp own
    simp (disch := decide) only [supplies_tree, supplies_nil, and_true] at has
    simp only [ofStored, sort, read_tree has (ofStored_of_extends inner b)]
    rw [height, limited_succ]
    exact limited_map inner.height b inner grouping
  | .assign name value, b + 1, o, own => by
    obtain ⟨given, rfl, sort, has⟩ := extends_tagged.mp own
    simp (disch := decide) only [supplies_tree, supplies_token, supplies_nil, and_true] at has
    simp only [ofStored, sort, read_token has.1, read_tree has.2 (ofStored_of_extends value b)]
    rw [height, limited_succ]
    exact limited_map value.height b value (assign name)
  | .declare name initial, b + 1, o, own => by
    obtain ⟨given, rfl, sort, has⟩ := extends_tagged.mp own
    simp (disch := decide) only [supplies_token, supplies_initial] at has
    simp only [ofStored, sort, read_token has.1, ofStored_of_extends initial b _ has.2]
    rw [height, limited_succ]
    exact limited_map initial.height b initial (declare name)
  | .print value, b + 1, o, own => by
    obtain ⟨given, rfl, sort, has⟩ := extends_tagged.mp own
    simp (disch := decide) only [supplies_tree, supplies_nil, and_true] at has
    simp only [ofStored, sort, read_tree has (ofStored_of_extends value b)]
    rw [height, limited_succ]
    exact limited_map value.height b value print
  | .expression value, b + 1, o, own => by
    obtain ⟨given, rfl, sort, has⟩ := extends_tagged.mp own
    simp (disch := decide) only [supplies_tree, supplies_nil, and_true] at has
    simp only [ofStored, sort, read_tree has (ofStored_of_extends value b)]
    rw [height, limited_succ]
    exact limited_map value.height b value expression
  | .block statements, 1, o, own => by
    obtain ⟨given, rfl, sort, has⟩ := extends_tagged.mp own
    obtain ⟨items, read, _⟩ := supplies_statements.mp has
    simp only [ofStored, sort, read, ok_bind]
    rw [height, limited_succ]
    rfl
  | .block statements, b + 2, o, own => by
    obtain ⟨given, rfl, sort, has⟩ := extends_tagged.mp own
    obtain ⟨items, read, all⟩ := supplies_statements.mp has
    simp only [ofStored, sort, read, ok_bind, mapM_ofStored_of_extends statements b items all]
    rw [height, limited_succ, limited_succ]
    exact limited_map (height.heights statements) b statements block

theorem mapM_ofStored_of_extends : ∀ (ns : List Node) (budget : Nat) (items : List Json),
    ExtendsAll items (storedAll ns) → items.mapM (ofStored budget) = limited (height.heights ns) budget ns
  | [], budget, items, all => by
    simp only [storedAll, ExtendsAll] at all
    rw [all, height.heights]
    exact (if_pos (Nat.zero_le budget)).symm
  | n :: ns, budget, items, all => by
    simp only [storedAll, ExtendsAll] at all
    obtain ⟨o, others, rfl, own, all⟩ := all
    rw [List.mapM_cons, ofStored_of_extends n budget o own,
      mapM_ofStored_of_extends ns budget others all]
    exact limited_max n.height (height.heights ns) budget n ns (· :: ·)

end

theorem yields_tree {next : β → Prop} {f : Node → Except StoredFault β}
    (loads : ∀ o, YieldsOnly (fun n => Extends true o n.stored) (ofStored b o))
    (others : ∀ n, HasTree given key n → YieldsOnly next (f n)) :
    YieldsOnly next (do f (← ofStored b (← field given key))) := by
  intro made read
  obtain ⟨o, there, read⟩ := bind_eq_ok.mp read
  obtain ⟨n, loaded, read⟩ := bind_eq_ok.mp read
  exact others n ⟨o, field_eq_ok.mp there, loads o n loaded⟩ made read

theorem yields_token {next : β → Prop} {f : Token → Except StoredFault β}
    (others : ∀ t, HasToken given key t → YieldsOnly next (f t)) :
    YieldsOnly next (do f (← Stored.token (← field given key))) := by
  intro made read
  obtain ⟨o, there, read⟩ := bind_eq_ok.mp read
  obtain ⟨t, loaded, read⟩ := bind_eq_ok.mp read
  exact others t ⟨o, field_eq_ok.mp there, token_eq_ok.mp loaded⟩ made read

theorem yields_all (loads : ∀ o, YieldsOnly (fun n => Extends true o n.stored) (ofStored b o))
    (items : List Json) :
    YieldsOnly (fun ns => ExtendsAll items (storedAll ns)) (items.mapM (ofStored b)) := by
  induction items with
  | nil => exact .ok (extendsAll_nil.mpr rfl)
  | cons o items ih =>
    rw [List.mapM_cons]
    refine (loads o).bind fun n own => ih.bind fun ns all => .ok ?_
    rw [storedAll, ExtendsAll]
    exact ⟨o, items, rfl, own, all⟩

/-- Only extensions of what is stored of a tree are loaded as the tree. -/
theorem extends_of_ofStored (budget : Nat) (o : Json) :
    YieldsOnly (fun n => Extends true o n.stored) (ofStored budget o) := by
  -- A block takes two steps of the budget at once.
  induction budget using Nat.strongRecOn generalizing o with
  | ind budget ih =>
  unfold ofStored
  split
  · exact .error _
  next b =>
  have part : ∀ o, YieldsOnly (fun n => Extends true o n.stored) (ofStored b o) :=
    ih b (Nat.lt_succ_self b)
  split
  · exact .ok (extends_missing.mpr rfl)
  next given =>
    have made {sort : String} {fields : Json.Fields}
        (named : given.lookup "type" = some (.string sort)) (has : Supplies true given fields) :
        Extends true (.object given) (tagged sort fields) :=
      extends_tagged.mpr ⟨given, rfl, named, has⟩
    split
    next named =>
      intro n read
      obtain ⟨t, loaded, same⟩ := bind_eq_ok.mp read
      cases same
      exact extends_whole_token.mpr ⟨given, rfl, named, token_eq_ok.mp loaded⟩
    next named =>
      refine yields_tree part fun left first => yields_token fun operator sign => ?_
      refine yields_tree part fun right second => .ok (made named ?_)
      simp (disch := decide) only [supplies_tree, supplies_token, supplies_nil, and_true]
      exact ⟨first, sign, second⟩
    next named =>
      refine yields_token fun operator sign => yields_tree part fun operand has => .ok (made named ?_)
      simp (disch := decide) only [supplies_tree, supplies_token, supplies_nil, and_true]
      exact ⟨sign, has⟩
    next named =>
      refine yields_tree part fun inner has => .ok (made named ?_)
      simp (disch := decide) only [supplies_tree, supplies_nil, and_true]
      exact has
    next named =>
      refine yields_token fun t has => .ok (made named ?_)
      simp (disch := decide) only [supplies_token, supplies_nil, and_true]
      exact has
    next named =>
      refine yields_token fun name has => .ok (made named ?_)
      simp (disch := decide) only [supplies_token, supplies_nil, and_true]
      exact has
    next named =>
      refine yields_token fun name sign => yields_tree part fun value has => .ok (made named ?_)
      simp (disch := decide) only [supplies_tree, supplies_token, supplies_nil, and_true]
      exact ⟨sign, has⟩
    next named =>
      refine yields_token fun name sign => (part _).bind fun initial own => .ok (made named ?_)
      simp (disch := decide) only [supplies_token, supplies_initial]
      exact ⟨sign, own⟩
    next named =>
      refine yields_tree part fun value has => .ok (made named ?_)
      simp (disch := decide) only [supplies_tree, supplies_nil, and_true]
      exact has
    next named =>
      refine yields_tree part fun value has => .ok (made named ?_)
      simp (disch := decide) only [supplies_tree, supplies_nil, and_true]
      exact has
    next named =>
      intro n read
      obtain ⟨items, found, read⟩ := bind_eq_ok.mp read
      split at read
      next => cases read
      next b read =>
        obtain ⟨ns, loaded, same⟩ := bind_eq_ok.mp read
        cases same
        have all := yields_all (ih b (by omega)) items ns loaded
        exact made named (supplies_statements.mpr ⟨items, found, all⟩)
    next => exact .error _
  · exact .error _

end Loading

end Node

end Scriptlet
