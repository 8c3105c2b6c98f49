import Scriptlet.Proofs.Json.Words

/-! JSON that was written is read back: any value without floats whose objects give no key twice, as
deep as the reader goes. Numbers with a fraction are left out because no stored program has one. -/
namespace Scriptlet

theorem Assoc.insert_of_notMem {pairs : List (String × α)} {key : String}
    (absent : key ∉ Assoc.keys pairs) (value : α) :
    Assoc.insert pairs key value = pairs ++ [(key, value)] := by
  induction pairs with
  | nil => rfl
  | cons pair others ih =>
    obtain ⟨k, v⟩ := pair
    rw [Assoc.keys, List.map_cons, List.mem_cons, not_or] at absent
    rw [Assoc.insert, if_neg (Ne.symm absent.1), ih absent.2, List.cons_append]

namespace Json

/-- Values that can be written and read back, at most so many collections deep. -/
inductive Fits : Nat → Json → Prop where
  | null : Fits d .null
  | bool : Fits d (.bool b)
  | int : Fits d (.int n)
  | string : Fits d (.string s)
  | array (all : ∀ item ∈ items, Fits d item) : Fits (d + 1) (.array items)
  | object (distinct : (Assoc.keys fields).Nodup) (all : ∀ field ∈ fields, Fits d field.2) :
    Fits (d + 1) (.object fields)

/-- A deeper reader reads it as well. -/
theorem Fits.mono (h : Fits d j) : ∀ {e}, d ≤ e → Fits e j := by
  induction h with
  | null => exact fun _ => .null
  | bool => exact fun _ => .bool
  | int => exact fun _ => .int
  | string => exact fun _ => .string
  | array _ ih =>
    intro e le
    cases e with
    | zero => exact absurd le (Nat.not_succ_le_zero _)
    | succ e => exact .array fun item mem => ih item mem (Nat.le_of_succ_le_succ le)
  | object distinct _ ih =>
    intro e le
    cases e with
    | zero => exact absurd le (Nat.not_succ_le_zero _)
    | succ e => exact .object distinct fun field mem => ih field mem (Nat.le_of_succ_le_succ le)

namespace Reader

theorem skip_of_head {c : Char} (filled : isSpace c = false) (cs : List Char) :
    skip (c :: cs) = c :: cs := by
  rw [skip, List.dropWhile_cons_of_neg (by simp [filled])]

theorem skip_lineBreak (level : Nat) (cs : List Char) : skip (lineBreak level ++ cs) = skip cs := by
  have blank : ∀ k, (List.replicate k ' ' ++ cs).dropWhile isSpace = cs.dropWhile isSpace := by
    intro k
    induction k with
    | zero => rfl
    | succ k ih => exact ih
  exact blank (2 * level)

/-- What a value may start with. -/
def Opens (c : Char) : Prop := isSpace c = false ∧ c ≠ ']' ∧ c ≠ '}'

theorem opens_of_digit {c : Char} (digit : c.isDigit = true) : Opens c := by
  refine ⟨?_, ?_, ?_⟩
  · cases blank : isSpace c with
    | false => rfl
    | true =>
      simp only [isSpace, Bool.or_eq_true, beq_iff_eq] at blank
      rcases blank with ((rfl | rfl) | rfl) | rfl <;> exact absurd digit (by decide)
  all_goals
    rintro rfl
    exact absurd digit (by decide)

theorem written_opens (h : Fits d j) (level : Nat) : ∃ c cs, j.written level = c :: cs ∧ Opens c := by
  have plain : ∀ {c}, c = 'n' ∨ c = 't' ∨ c = 'f' ∨ c = '"' ∨ c = '[' ∨ c = '{' ∨ c = '-' →
      Opens c := by
    rintro _ (rfl | rfl | rfl | rfl | rfl | rfl | rfl) <;> exact ⟨by decide, by decide, by decide⟩
  cases h with
  | null => exact ⟨_, _, rfl, plain (by simp)⟩
  | @bool _ b => cases b <;> exact ⟨_, _, rfl, plain (by simp)⟩
  | string => exact ⟨_, _, rfl, plain (by simp)⟩
  | @array items =>
    cases items <;> exact ⟨_, _, rfl, plain (by simp)⟩
  | @object fields =>
    cases fields <;> exact ⟨_, _, rfl, plain (by simp)⟩
  | @int _ n =>
    obtain ⟨m, ⟨_, text⟩ | ⟨_, text⟩⟩ := toList_toString n
    · obtain ⟨c, cs, digits, digit⟩ := toDigits_first m
      exact ⟨c, cs, text.trans digits, opens_of_digit digit⟩
    · exact ⟨_, _, text, plain (by simp)⟩

/-- The value is read back whatever follows it. -/
def Reads (d : Nat) (j : Json) : Prop :=
  ∀ fuel level rest, (j.written level).length < fuel → EndsNumber rest →
    value fuel d (j.written level ++ rest) = .ok (j, rest)

theorem Reads.of_succ (step : ∀ {fuel level rest}, (j.written level).length ≤ fuel →
    EndsNumber rest → value (fuel + 1) d (j.written level ++ rest) = .ok (j, rest)) :
    Reads d j := by
  intro fuel level rest enough ends
  cases fuel with
  | zero => exact absurd enough (Nat.not_lt_zero _)
  | succ fuel => exact step (Nat.le_of_lt_succ enough) ends

theorem endsNumber_lineBreak (level : Nat) (cs : List Char) : EndsNumber (lineBreak level ++ cs) := by
  rintro _ ⟨rfl⟩
  decide

section Writing

variable (level : Nat) (cs : List Char)

theorem length_lineBreak : (lineBreak level).length = 2 * level + 1 := by
  rw [lineBreak, List.length_cons, List.length_replicate]

theorem written_array (item : Json) (items : List Json) :
    (array (item :: items)).written level ++ cs = '[' :: (lineBreak (level + 1) ++
      (item.written (level + 1) ++ (writtenItems (level + 1) items ++
        (lineBreak level ++ ']' :: cs)))) := by
  simp [written]

theorem written_object (key : String) (field : Json) (fields : Fields) :
    (object ((key, field) :: fields)).written level ++ cs = '{' :: (lineBreak (level + 1) ++
      (writtenString key ++ (':' :: ' ' :: (field.written (level + 1) ++
        (writtenFields (level + 1) fields ++ (lineBreak level ++ '}' :: cs)))))) := by
  simp [written]

theorem writtenItems_cons (item : Json) (items : List Json) :
    writtenItems level (item :: items) ++ cs =
      ',' :: (lineBreak level ++ (item.written level ++ (writtenItems level items ++ cs))) := by
  simp only [writtenItems, List.cons_append, List.append_assoc]

theorem writtenFields_cons (key : String) (value : Json) (fields : Fields) :
    writtenFields level ((key, value) :: fields) ++ cs =
      ',' :: (lineBreak level ++ (writtenString key ++ (':' :: ' ' :: (value.written level ++
        (writtenFields level fields ++ cs))))) := by
  simp only [writtenFields, List.cons_append, List.nil_append, List.append_assoc]

/-- What stands behind an item: more of them, or the closing of the array. -/
theorem endsNumber_items (outer : Nat) (items : List Json) :
    EndsNumber (writtenItems level items ++ (lineBreak outer ++ cs)) := by
  cases items with
  | nil => exact endsNumber_lineBreak outer cs
  | cons item items =>
    rintro _ ⟨rfl⟩
    decide

theorem endsNumber_fields (outer : Nat) (fields : Fields) :
    EndsNumber (writtenFields level fields ++ (lineBreak outer ++ cs)) := by
  cases fields with
  | nil => exact endsNumber_lineBreak outer cs
  | cons field fields =>
    rintro _ ⟨rfl⟩
    decide

end Writing

section Collections

variable {d fuel level outer : Nat} {rest : List Char}

/-- What `items` does behind an item. -/
theorem items_of_value {read : List Json} {cs after : List Char} {item : Json}
    (first : value fuel d cs = .ok (item, after)) : Reader.items (fuel + 1) d read cs =
      match skip after with
      | ']' :: cs => .ok (array (item :: read).reverse, cs)
      | ',' :: cs => Reader.items fuel d (item :: read) (skip cs)
      | _ => .error .malformed := by
  rw [Reader.items, first]
  rfl

theorem skip_written {item : Json} (fits : Fits d item) (cs : List Char) :
    skip (item.written level ++ cs) = item.written level ++ cs := by
  obtain ⟨c, own, head, opens⟩ := written_opens fits level
  rw [head, List.cons_append, skip_of_head opens.1]

/-- An array is read from its first item on. -/
theorem items_written {item : Json} {items : List Json}
    (fits : ∀ j ∈ item :: items, Fits d j) (reads : ∀ j ∈ item :: items, Reads d j)
    {read : List Json} (enough : (item.written level ++ writtenItems level items).length + 1 < fuel) :
    Reader.items fuel d read
        (item.written level ++ (writtenItems level items ++ (lineBreak outer ++ ']' :: rest))) =
      .ok (array (read.reverse ++ item :: items), rest) := by
  obtain ⟨fuel, rfl⟩ := Nat.exists_eq_succ_of_ne_zero (Nat.ne_of_gt (Nat.zero_lt_of_lt enough))
  induction items generalizing item fuel read with
  | nil =>
    have first := reads item (by simp) fuel level (lineBreak outer ++ ']' :: rest)
      (by rw [List.length_append] at enough; omega) (endsNumber_lineBreak outer _)
    rw [writtenItems, List.nil_append, items_of_value first, skip_lineBreak, skip_of_head rfl,
      ← List.reverse_cons]
    rfl
  | cons next items ih =>
    have whole := congrArg List.length (writtenItems_cons level [] next items)
    simp only [List.append_nil, List.length_append, List.length_cons] at whole enough
    have first := reads item (by simp) fuel level
      (writtenItems level (next :: items) ++ (lineBreak outer ++ ']' :: rest))
      (by omega) (endsNumber_items level _ outer (next :: items))
    obtain ⟨fuel, rfl⟩ := Nat.exists_eq_succ_of_ne_zero (n := fuel) (by omega)
    rw [items_of_value first, writtenItems_cons, skip_of_head rfl]
    simp only [skip_lineBreak, skip_written (fits next (by simp))]
    rw [ih (fun j mem => fits j (List.mem_cons_of_mem _ mem))
      (fun j mem => reads j (List.mem_cons_of_mem _ mem)) fuel
      (by rw [List.length_append]; omega), List.reverse_cons, List.append_assoc,
      List.singleton_append]

/-- What `fields` does behind a key. -/
theorem fields_of_value {read : Fields} {cs after : List Char} {key : String} {field : Json}
    (first : value fuel d (skip cs) = .ok (field, after)) :
    Reader.fields (fuel + 1) d read (writtenString key ++ ':' :: cs) =
      match skip after with
      | '}' :: cs => .ok (object (Assoc.insert read key field), cs)
      | ',' :: cs => Reader.fields fuel d (Assoc.insert read key field) (skip cs)
      | _ => .error .malformed := by
  obtain ⟨text, written, closed⟩ := string_writtenString key (':' :: cs)
  have colon : skip (':' :: cs) = ':' :: cs := skip_of_head rfl cs
  rw [written, Reader.fields, closed]
  simp only [bind, Except.bind, colon]
  generalize value fuel d (skip cs) = outcome at first ⊢
  subst first
  rfl

/-- A field's value is read behind the space that follows the colon. -/
theorem value_of_reads {field : Json} (fits : Fits d field) (reads : Reads d field) (fuel level : Nat)
    (rest : List Char) (enough : (field.written level).length < fuel) (ends : EndsNumber rest) :
    value fuel d (skip (' ' :: (field.written level ++ rest))) = .ok (field, rest) := by
  have space : ∀ cs, skip (' ' :: cs) = skip cs := fun _ => rfl
  rw [space, skip_written fits]
  exact reads fuel level rest enough ends

theorem skip_writtenString (s : String) (cs : List Char) :
    skip (writtenString s ++ cs) = writtenString s ++ cs := skip_of_head rfl _

/-- An object is read from its first key on. -/
theorem fields_written {key : String} {field : Json} {fields read : Fields}
    (distinct : (Assoc.keys (read ++ (key, field) :: fields)).Nodup)
    (fits : ∀ f ∈ (key, field) :: fields, Fits d f.2)
    (reads : ∀ f ∈ (key, field) :: fields, Reads d f.2)
    (enough : (field.written level ++ writtenFields level fields).length + 1 < fuel) :
    Reader.fields fuel d read (writtenString key ++ (':' :: ' ' :: (field.written level ++
        (writtenFields level fields ++ (lineBreak outer ++ '}' :: rest))))) =
      .ok (object (read ++ (key, field) :: fields), rest) := by
  obtain ⟨fuel, rfl⟩ := Nat.exists_eq_succ_of_ne_zero (Nat.ne_of_gt (Nat.zero_lt_of_lt enough))
  rw [List.length_append] at enough
  have absent : key ∉ Assoc.keys read := by
    rw [Assoc.keys, List.map_append, List.nodup_append] at distinct
    exact fun mem => distinct.2.2 key mem key (by simp) rfl
  have ownFits : Fits d field := fits _ List.mem_cons_self
  have ownReads : Reads d field := reads _ List.mem_cons_self
  induction fields generalizing key field fuel read with
  | nil =>
    have first := value_of_reads ownFits ownReads fuel level (lineBreak outer ++ '}' :: rest)
      (by omega) (endsNumber_lineBreak outer _)
    rw [writtenFields, List.nil_append, fields_of_value first, skip_lineBreak,
      skip_of_head (c := '}') rfl, Assoc.insert_of_notMem absent]
    rfl
  | cons next fields ih =>
    obtain ⟨key', field'⟩ := next
    have whole := congrArg List.length (writtenFields_cons level [] key' field' fields)
    simp only [List.append_nil, List.length_append, List.length_cons] at whole
    have first := value_of_reads ownFits ownReads fuel level
      (writtenFields level ((key', field') :: fields) ++ (lineBreak outer ++ '}' :: rest))
      (by omega) (endsNumber_fields level _ outer ((key', field') :: fields))
    have separate : read ++ (key, field) :: (key', field') :: fields =
        (read ++ [(key, field)]) ++ (key', field') :: fields := by simp
    rw [separate] at distinct ⊢
    obtain ⟨fuel, rfl⟩ := Nat.exists_eq_succ_of_ne_zero (n := fuel) (by omega)
    have others := ih distinct (fun j mem => fits j (List.mem_cons_of_mem _ mem))
      (fun j mem => reads j (List.mem_cons_of_mem _ mem)) fuel (by omega)
    rw [fields_of_value first, writtenFields_cons, skip_of_head (c := ',') rfl,
      Assoc.insert_of_notMem absent]
    simp only [skip_lineBreak, skip_writtenString]
    refine others ?_ (fits (key', field') (by simp)) (reads (key', field') (by simp))
    rw [Assoc.keys, List.map_append, List.nodup_append] at distinct
    exact fun mem => distinct.2.2 key' mem key' (by simp) rfl

/-- A bracket with something other than its closing behind it. -/
theorem value_bracket {c : Char} {cs more : List Char} (inside : skip cs = c :: more)
    (other : c ≠ ']') : value (fuel + 1) (d + 1) ('[' :: cs) = Reader.items fuel d [] (c :: more) := by
  rw [value, inside]
  split
  · contradiction
  split
  next same => cases same; exact absurd rfl other
  · rfl

theorem value_brace {c : Char} {cs more : List Char} (inside : skip cs = c :: more)
    (other : c ≠ '}') :
    value (fuel + 1) (d + 1) ('{' :: cs) = Reader.fields fuel d [] (c :: more) := by
  rw [value, inside]
  split
  · contradiction
  split
  next same => cases same; exact absurd rfl other
  · rfl

theorem Reads.array {items : List Json} (fits : ∀ item ∈ items, Fits d item)
    (reads : ∀ item ∈ items, Reads d item) : Reads (d + 1) (.array items) := by
  apply Reads.of_succ
  intro fuel level rest enough _
  cases items with
  | nil => rfl
  | cons item items =>
    have length := congrArg List.length (written_array level [] item items)
    simp only [List.append_nil, List.length_append, List.length_cons, length_lineBreak] at length
    obtain ⟨c, cs, head, opens⟩ := written_opens (fits item (by simp)) (level + 1)
    have inside := skip_lineBreak (level + 1) (item.written (level + 1) ++
      (writtenItems (level + 1) items ++ (lineBreak level ++ ']' :: rest)))
    rw [skip_written (fits item (by simp)), head, List.cons_append] at inside
    rw [written_array, head, List.cons_append, value_bracket inside opens.2.1, ← List.cons_append,
      ← head]
    exact items_written fits reads (by rw [List.length_append]; omega)

theorem Reads.object {fields : Fields} (distinct : (Assoc.keys fields).Nodup)
    (fits : ∀ field ∈ fields, Fits d field.2) (reads : ∀ field ∈ fields, Reads d field.2) :
    Reads (d + 1) (.object fields) := by
  apply Reads.of_succ
  intro fuel level rest enough _
  cases fields with
  | nil => rfl
  | cons field fields =>
    obtain ⟨key, field⟩ := field
    have length := congrArg List.length (written_object level [] key field fields)
    simp only [List.append_nil, List.length_append, List.length_cons, length_lineBreak] at length
    have inside := skip_lineBreak (level + 1) (writtenString key ++ (':' :: ' ' ::
      (field.written (level + 1) ++ (writtenFields (level + 1) fields ++
        (lineBreak level ++ '}' :: rest)))))
    rw [skip_writtenString] at inside
    rw [written_object, value_brace inside (by decide)]
    exact fields_written distinct fits reads (by rw [List.length_append]; omega)

end Collections

theorem Reads.string (s : String) : Reads d (.string s) := by
  apply Reads.of_succ
  intro fuel level rest _ _
  obtain ⟨cs, text, closed⟩ := string_writtenString s rest
  change value (fuel + 1) _ (writtenString s ++ rest) = _
  rw [text, value, closed]
  rfl

end Reader

end Json

end Scriptlet
