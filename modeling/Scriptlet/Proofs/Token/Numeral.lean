import Scriptlet.Decimal.Numeral
import Scriptlet.Proofs.Token.Tiling

/-! The numbers of a source text are numerals: whatever is cut out as a number can be read as one. -/
namespace Scriptlet

namespace Numeral

section Character

variable {c : Char}

/-- The characters of numerals that are read as they stand. -/
def plain (c : Char) : Bool := c.isDigit || ['.', 'e', '+', '-'].contains c

theorem toNat_of_plain (h : plain c = true) : 43 ≤ c.toNat ∧ c.toNat ≤ 57 ∨ c = 'e' := by
  simp only [plain, Bool.or_eq_true, List.contains_iff_mem, List.mem_cons, List.not_mem_nil,
    or_false] at h
  rcases h with digit | rfl | rfl | rfl | rfl
  · have := toNat_of_isDigit digit
    omega
  all_goals decide

theorem bounds_of_plain (h : plain c = true) : 43 ≤ c.toNat ∧ c.toNat ≤ 101 := by
  rcases toNat_of_plain h with bound | rfl
  · omega
  · decide

theorem narrow_of_plain (h : plain c = true) : narrow c = c := by
  have := bounds_of_plain h
  simp only [narrow]
  rw [if_pos (by omega)]

theorem not_blank_of_plain (h : plain c = true) : Text.isAsciiBlank c = false := by
  have bound := bounds_of_plain h
  simp only [Text.isAsciiBlank, Bool.or_eq_false_iff, Bool.and_eq_false_iff, beq_eq_false_iff_ne,
    decide_eq_false_iff_not]
  refine ⟨?_, .inr (by omega)⟩
  rintro rfl
  exact absurd bound (by decide)

end Character

section Text

variable {cs : List Char}

theorem map_narrow_of_plain (h : cs.all plain = true) : cs.map narrow = cs := by
  have same : ∀ c ∈ cs, narrow c = id c := by
    intro c mem
    exact narrow_of_plain (List.all_eq_true.mp h c mem)
  rw [List.map_congr_left same, List.map_id]

theorem joinGroups_of_plain (h : cs.all plain = true) (before : Char) :
    joinGroups before cs = some cs := by
  induction cs generalizing before with
  | nil => rfl
  | cons c cs ih =>
    simp only [List.all_cons, Bool.and_eq_true] at h
    have other : c ≠ '_' := by
      rintro rfl
      exact absurd h.1 (by decide)
    rw [joinGroups, ih h.2 c]
    · rfl
    · rintro _ _ rfl
      exact absurd rfl other
    · rintro rfl
      exact absurd rfl other

theorem dropWhile_blank_of_plain (h : cs.all plain = true) :
    cs.dropWhile Text.isAsciiBlank = cs := by
  cases cs with
  | nil => rfl
  | cons c cs =>
    simp only [List.all_cons, Bool.and_eq_true] at h
    rw [List.dropWhile_cons_of_neg (by simp [not_blank_of_plain h.1])]

theorem strip_of_plain (h : cs.all plain = true) : strip cs = cs := by
  have backwards : cs.reverse.all plain = true := by rwa [List.all_reverse]
  rw [strip, dropWhile_blank_of_plain h, dropWhile_blank_of_plain backwards, List.reverse_reverse]

end Text

section Number

variable {first : Char} {others : List Char}

theorem plain_of_digits {cs : List Char} (digits : cs.all Char.isDigit = true) :
    cs.all plain = true := by
  refine List.all_eq_true.mpr fun c mem => ?_
  rw [plain, List.all_eq_true.mp digits c mem, Bool.true_or]

theorem digit_or_point (number : IsNumber first others) (mem : c ∈ first :: others) :
    c.isDigit = true ∨ c = '.' := by
  obtain ⟨digit, whole, digits, shape⟩ := number
  have own : (first :: whole).all Char.isDigit = true := by
    rw [List.all_cons, digit, digits]
    rfl
  rcases shape with rfl | ⟨places, digits', rfl⟩
  · exact .inl (List.all_eq_true.mp own c mem)
  · rw [← List.cons_append] at mem
    rcases List.mem_append.mp mem with mem | mem
    · exact .inl (List.all_eq_true.mp own c mem)
    rcases List.mem_cons.mp mem with point | mem
    · exact .inr point
    · exact .inl (List.all_eq_true.mp digits' c mem)

theorem plain_of_isNumber (h : IsNumber first others) : (first :: others).all plain = true := by
  refine List.all_eq_true.mpr fun c mem => ?_
  rcases digit_or_point h mem with digit | rfl
  · rw [plain, digit, Bool.true_or]
  · rfl

theorem magnitude?_isSome (h : IsNumber first others) :
    (magnitude? (first :: others)).isSome = true := by
  obtain ⟨digit, whole, digits, shape⟩ := h
  have digits : (first :: whole).all Char.isDigit = true := by simp [digit, digits]
  rcases shape with rfl | ⟨places, fraction, rfl⟩
  · obtain ⟨front, back⟩ := span_of_ends digits [] nofun
    rw [List.append_nil] at front back
    simp [magnitude?, front, back, exponent?]
  · obtain ⟨front, back⟩ := span_of_ends digits ('.' :: places)
      (by intro c mem; cases mem; rfl)
    obtain ⟨after, none⟩ := span_of_ends fraction [] nofun
    rw [List.append_nil] at after none
    rw [List.cons_append] at front back
    simp [magnitude?, front, back, after, none, exponent?]

/-- No number starts with a letter, as the names of infinity and not-a-number do. -/
theorem toLower_of_digit {c : Char} (digit : c.isDigit = true) : c.toLower = c := by
  have bound := toNat_of_isDigit digit
  unfold Char.toLower
  rw [dif_neg]
  simp only [ge_iff_le, not_and, UInt32.le_iff_toNat_le]
  intro letter
  have letter : 65 ≤ c.toNat := letter
  omega

/-- A plain text whose first digit comes at once or behind a sign is read as a magnitude. -/
theorem ofChars?_of_plain (simple : cs.all plain = true) (parts : sign cs = (negative, first :: others))
    (digit : first.isDigit = true) :
    ofChars? cs = (magnitude? (first :: others)).map (Binary64.ofMagnitude negative) := by
  have unnamed : ∀ c cs, c.isDigit = false → (first :: others).map Char.toLower ≠ c :: cs := by
    intro c cs letter same
    rw [List.map_cons, toLower_of_digit digit] at same
    cases same
    rw [digit] at letter
    cases letter
  rw [ofChars?, map_narrow_of_plain simple, joinGroups_of_plain simple, Option.bind_some,
    strip_of_plain simple, parts]
  simp only [unnamed 'i' _ rfl, unnamed 'n' _ rfl, or_self, if_false]

theorem sign_of_digit (digit : first.isDigit = true) :
    sign (first :: others) = (false, first :: others) := by
  have other : first ≠ '-' ∧ first ≠ '+' := by
    constructor <;> rintro rfl <;> exact absurd digit (by decide)
  unfold sign
  split
  next same => cases same; exact absurd rfl other.1
  next same => cases same; exact absurd rfl other.2
  · rfl

theorem ofChars?_isSome (h : IsNumber first others) :
    (ofChars? (first :: others)).isSome = true := by
  rw [ofChars?_of_plain (plain_of_isNumber h) (sign_of_digit h.1) h.1, Option.isSome_map]
  exact magnitude?_isSome h

end Number

end Numeral

theorem readNumber?_isSome {first : Char} {others : List Char} (h : IsNumber first others) :
    (readNumber? (String.ofList (first :: others))).isSome = true := by
  rw [readNumber?, String.toList_ofList]
  exact Numeral.ofChars?_isSome h

theorem isNumber_of_mem_pieces {cs : List Char} (mem : .number first others ∈ pieces cs) :
    IsNumber first others := by
  obtain ⟨rest, fits⟩ := (tiling_pieces cs).exists_fits mem
  cases fits with
  | number digits _ _ => exact digits

/-- The number tokens can be read as numbers. -/
def Numerals (ts : List Token) : Prop :=
  ∀ t ∈ ts, t.kind = .number → (readNumber? t.lexeme).isSome = true

theorem Numerals.left (h : Numerals (ts ++ us)) : Numerals ts := by
  intro t mem
  exact h t (List.mem_append_left us mem)

theorem Numerals.right (h : Numerals (ts ++ us)) : Numerals us := by
  intro t mem
  exact h t (List.mem_append_right ts mem)

theorem Numerals.tail (h : Numerals (t :: ts)) : Numerals ts := by
  intro u mem
  exact h u (List.mem_cons_of_mem t mem)

theorem Piece.number_of_kind {p : Piece} (kind : p.kind = .number) :
    ∃ first others, p = .number first others := by
  cases p with
  | number first others => exact ⟨first, others, rfl⟩
  | word first others =>
    simp only [Piece.kind] at kind
    split at kind <;> cases kind
  | _ => cases kind

theorem numerals_tokensFrom {line : Nat} {ps : List Piece}
    (numbers : ∀ first others, .number first others ∈ ps → IsNumber first others) :
    Numerals (tokensFrom line ps) := by
  induction ps generalizing line with
  | nil => exact nofun
  | cons p ps ih =>
    intro t mem kind
    rcases List.mem_cons.mp mem with rfl | mem
    · obtain ⟨first, others, rfl⟩ := Piece.number_of_kind kind
      exact readNumber?_isSome (numbers first others List.mem_cons_self)
    · exact ih (fun first others mem => numbers first others (List.mem_cons_of_mem _ mem)) t mem kind

theorem Source.numerals (source : String) : Numerals (stream source).body := by
  intro t mem
  have cut := (List.mem_filter.mp mem).1
  exact numerals_tokensFrom (fun _ _ => isNumber_of_mem_pieces) t cut

section Scanning

variable {first : Char} {others : List Char} (number : IsNumber first others)
include number

theorem newlines_number : newlines (first :: others) = 0 := by
  refine List.count_eq_zero.mpr fun mem => ?_
  exact absurd (List.all_eq_true.mp (Numeral.plain_of_isNumber number) _ mem) (by decide)

theorem tiling_number : Tiling (first :: others) [.number first others] := by
  have fits : (Piece.number first others).Fits [] := .number number nofun nofun
  exact fits.tiling

theorem tiling_minus_number :
    Tiling ('-' :: first :: others) [.symbol .minus, .number first others] :=
  .cons (p := .symbol .minus) (.symbol (absurd · (by decide))) (tiling_number number)

/-- A number alone is one token. -/
theorem Source.tokens_number : tokens (String.ofList (first :: others)) =
    [⟨.number, String.ofList (first :: others), 1⟩] := by
  rw [tokens, String.toList_ofList, ← (tiling_number number).eq_pieces]
  simp only [tokensFrom, Piece.slice, newlines_number number]
  rfl

theorem Source.tokens_minus_number : tokens (String.ofList ('-' :: first :: others)) =
    [⟨.symbol .minus, "-", 1⟩, ⟨.number, String.ofList (first :: others), 1⟩] := by
  rw [tokens, String.toList_ofList, ← (tiling_minus_number number).eq_pieces]
  simp only [tokensFrom, Piece.slice, newlines_number number]
  rfl

end Scanning

end Scriptlet
