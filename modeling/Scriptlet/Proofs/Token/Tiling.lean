import Mathlib.Data.List.Forall2
import Scriptlet.Token.Stream

/-! Tilings of a text: slices that make it up, each of one class and each as long as its class
allows in front of what follows. Every text has exactly one tiling, which is found by cutting the
longest piece off its head again and again, and its tokens are the pieces of that tiling. -/
namespace Scriptlet

/-- A run of digits with at most one point behind the first of them. -/
def IsNumber (first : Char) (others : List Char) : Prop :=
  first.isDigit = true ∧ ∃ whole, whole.all Char.isDigit = true ∧
    (others = whole ∨ ∃ places, places.all Char.isDigit = true ∧ others = whole ++ '.' :: places)

theorem isNumber_numberTail {c : Char} (digit : c.isDigit = true) (cs : List Char) :
    IsNumber c (Piece.numberTail cs).1 := by
  refine ⟨digit, cs.takeWhile Char.isDigit, List.all_takeWhile, ?_⟩
  unfold Piece.numberTail
  split
  next rest _ => exact .inr ⟨rest.takeWhile Char.isDigit, List.all_takeWhile, rfl⟩
  next => exact .inl rfl

theorem toNat_of_isDigit {c : Char} (digit : c.isDigit = true) : 48 ≤ c.toNat ∧ c.toNat ≤ 57 := by
  simp only [Char.isDigit, Bool.and_eq_true, decide_eq_true_eq, ge_iff_le,
    UInt32.le_iff_toNat_le] at digit
  exact digit

section Span

variable {p : Char → Bool} {inside : List Char}

/-- A run of characters of a class, read up to where the class ends. -/
theorem span_of_ends (own : inside.all p = true) (rest : List Char)
    (ends : ∀ c ∈ rest.head?, p c = false) :
    (inside ++ rest).takeWhile p = inside ∧ (inside ++ rest).dropWhile p = rest := by
  have own : ∀ c ∈ inside, p c = true := List.all_eq_true.mp own
  rw [List.takeWhile_append_of_pos own, List.dropWhile_append_of_pos own]
  cases rest with
  | nil => exact ⟨List.append_nil inside, rfl⟩
  | cons c rest =>
    have other := ends c rfl
    constructor
    · rw [List.takeWhile_cons_of_neg (by simp [other]), List.append_nil]
    · rw [List.dropWhile_cons_of_neg (by simp [other])]

theorem notMem_takeWhile (other : p stop = false) (cs : List Char) : stop ∉ cs.takeWhile p := by
  intro mem
  have own := List.all_eq_true.mp (List.all_takeWhile (p := p) (l := cs)) _ mem
  rw [other] at own
  cases own

theorem ends_dropWhile (cs : List Char) : ∀ c ∈ (cs.dropWhile p).head?, p c = false := by
  intro c first
  have := List.head?_dropWhile_not p cs
  rw [Option.mem_def.mp first] at this
  simpa using this

end Span

namespace Piece

/-- The symbols that an equals sign right behind them would make longer. -/
def extensible : List Symbol := [.bang, .equal, .greater, .less]

/-- A character that starts a slice of no class but its own. -/
def Unclassed (c : Char) : Prop :=
  isBlank c = false ∧ (∀ s : Symbol, s.text ≠ [c]) ∧ isWordStart c = false ∧ c.isDigit = false ∧
    c ≠ '"'

/-- The slice of a piece is of its class, and in front of this rest no longer one is. A string that
is not closed has no rest. -/
inductive Fits : Piece → List Char → Prop where
  | blank (own : isBlank c = true) : Fits (.blank c) rest
  | symbol (lone : s ∈ extensible → rest.head? ≠ some '=') : Fits (.symbol s) rest
  | word (start : isWordStart c = true) (parts : cs.all isWordPart = true)
      (ends : ∀ d ∈ rest.head?, isWordPart d = false) : Fits (.word c cs) rest
  | number (digits : IsNumber c cs) (ends : ∀ d ∈ rest.head?, d.isDigit = false)
      (point : '.' ∉ cs → rest.head? ≠ some '.') : Fits (.number c cs) rest
  | closed (body : '"' ∉ cs) : Fits (.quoted cs true) rest
  | unclosed (body : '"' ∉ cs) : Fits (.quoted cs false) []
  | stray (other : Unclassed c) : Fits (.stray c) rest

theorem head_symbol (s : Symbol) : ∀ c ∈ s.text.head?,
    isBlank c = false ∧ isWordStart c = false ∧ c.isDigit = false ∧ c ≠ '"' := by
  intro c first
  cases s <;> cases first <;> decide

theorem next_of_plain {c : Char} (plain : ∀ s : Symbol, s.text ≠ [c]) (cs : List Char) :
    next c cs = nextPlain c cs := by
  have single : Symbol.ofChar? c = none := by
    cases found : Symbol.ofChar? c with
    | none => rfl
    | some s => exact absurd (text_of_ofChar? found) (plain s)
  have pair : Symbol.pairOfChar? c = none := by
    cases found : Symbol.pairOfChar? c with
    | none => rfl
    | some both => exact absurd (text_of_pairOfChar? found).1 (plain both.1)
  rw [next, single, pair]

theorem known_of_text {s : Symbol} {c : Char} (text : s.text = [c]) :
    Symbol.ofChar? c ≠ none ∨ Symbol.pairOfChar? c ≠ none := by
  cases s <;> cases text <;> decide

theorem not_extensible_of_ofChar? {c : Char} {s : Symbol} (found : Symbol.ofChar? c = some s) :
    s ∉ extensible := by
  unfold Symbol.ofChar? at found
  split at found <;> cases found <;> decide

theorem not_extensible_of_pairOfChar? {c : Char} {alone doubled : Symbol}
    (found : Symbol.pairOfChar? c = some (alone, doubled)) : doubled ∉ extensible := by
  unfold Symbol.pairOfChar? at found
  split at found <;> cases found <;> decide

theorem quotedBody_fits (cs : List Char) : (quotedBody cs).1.Fits (quotedBody cs).2 := by
  have body : '"' ∉ cs.takeWhile (· != '"') := notMem_takeWhile (by decide) cs
  unfold quotedBody
  split
  · exact .closed body
  next none =>
    have whole := cs.takeWhile_append_dropWhile (p := (· != '"'))
    rw [none, List.append_nil] at whole
    exact .unclosed (whole ▸ body)

theorem numberTail_ends (cs : List Char) : (∀ d ∈ (numberTail cs).2.head?, d.isDigit = false) ∧
    ('.' ∉ (numberTail cs).1 → (numberTail cs).2.head? ≠ some '.') := by
  unfold numberTail
  split
  next rest _ =>
    exact ⟨ends_dropWhile rest, fun none => absurd (by simp) none⟩
  next other =>
    refine ⟨ends_dropWhile cs, ?_⟩
    intro _ point
    cases rest : cs.dropWhile Char.isDigit with
    | nil => simp [rest] at point
    | cons d ds =>
      obtain rfl : d = '.' := by simpa [rest] using point
      exact other ds rest

theorem nextPlain_fits {c : Char} (plain : ∀ s : Symbol, s.text ≠ [c]) (cs : List Char) :
    (nextPlain c cs).1.Fits (nextPlain c cs).2 := by
  unfold nextPlain
  split
  next own => exact .blank own
  next blank =>
  split
  next start => exact .word start List.all_takeWhile (ends_dropWhile cs)
  next word =>
  split
  next digit =>
    obtain ⟨ends, point⟩ := numberTail_ends cs
    exact .number (isNumber_numberTail digit cs) ends point
  next digit =>
  split
  · exact quotedBody_fits cs
  next quote =>
    simp only [Bool.not_eq_true] at blank word digit
    exact .stray ⟨blank, plain, word, digit, quote⟩

theorem next_fits (c : Char) (cs : List Char) : (next c cs).1.Fits (next c cs).2 := by
  unfold next
  split
  next s single => exact .symbol fun mem => absurd mem (not_extensible_of_ofChar? single)
  next single =>
  split
  next alone doubled pair =>
    split
    · exact .symbol fun mem => absurd mem (not_extensible_of_pairOfChar? pair)
    next other =>
      refine .symbol fun _ equal => ?_
      obtain ⟨rest, rfl⟩ : ∃ rest, cs = '=' :: rest := List.head?_eq_some_iff.mp equal
      exact other rest rfl
  next pair =>
    refine nextPlain_fits ?_ cs
    intro s text
    rcases known_of_text text with known | known
    · exact known single
    · exact known pair

theorem class_of_isBlank {c : Char} (blank : isBlank c = true) :
    isWordStart c = false ∧ c.isDigit = false := by
  simp only [isBlank, Bool.or_eq_true, beq_iff_eq] at blank
  rcases blank with ((rfl | rfl) | rfl) | rfl <;> decide

theorem not_isBlank {c : Char} (own : isWordStart c = true ∨ c.isDigit = true) :
    ¬ isBlank c = true := by
  intro blank
  obtain ⟨word, digit⟩ := class_of_isBlank blank
  simp [word, digit] at own

/-- A letter is no digit. -/
theorem isWordStart_of_isDigit {c : Char} (digit : c.isDigit = true) : isWordStart c = false := by
  have bound := toNat_of_isDigit digit
  have letter : c.isAlpha = false := by
    rw [Bool.eq_false_iff]
    intro alpha
    rcases (Bool.or_eq_true _ _).mp alpha with upper | lower
    · have first : 'A'.toNat ≤ c.toNat := UInt32.le_iff_toNat_le.mp (of_decide_eq_true upper).1
      exact absurd (Nat.le_trans first bound.2) (by decide)
    · have first : 'a'.toNat ≤ c.toNat :=
        UInt32.le_iff_toNat_le.mp (of_decide_eq_true ((Bool.and_eq_true _ _).mp lower).1)
      exact absurd (Nat.le_trans first bound.2) (by decide)
  have mark : c ≠ '_' := by
    rintro rfl
    exact absurd bound (by decide)
  simp only [isWordStart, Text.isLetter, letter]
  rw [if_pos (by omega), Bool.false_or, beq_eq_false_iff_ne]
  exact mark

theorem plain_of_class {c : Char}
    (own : isBlank c = true ∨ isWordStart c = true ∨ c.isDigit = true ∨ c = '"') (s : Symbol) :
    s.text ≠ [c] := by
  intro text
  obtain ⟨blank, word, digit, quote⟩ := head_symbol s c (by rw [text]; rfl)
  rcases own with own | own | own | own
  · rw [blank] at own
    cases own
  · rw [word] at own
    cases own
  · rw [digit] at own
    cases own
  · exact quote own

theorem next_alone {alone doubled : Symbol} (single : Symbol.ofChar? c = none)
    (pair : Symbol.pairOfChar? c = some (alone, doubled)) (lone : rest.head? ≠ some '=') :
    next c rest = (.symbol alone, rest) := by
  rw [next, single, pair]
  cases rest with
  | nil => rfl
  | cons d rest =>
    have other : d ≠ '=' := fun same => lone (congrArg some same)
    simp [other]

theorem next_symbol {s : Symbol} {rest : List Char} (lone : s ∈ extensible → rest.head? ≠ some '=')
    (whole : c :: cs = s.text ++ rest) : next c cs = (.symbol s, rest) := by
  cases s with
  | bang | equal | greater | less =>
    cases whole
    exact next_alone rfl rfl (lone (by decide))
  | _ =>
    cases whole
    rfl

theorem numberTail_of_fits (digits : IsNumber c cs) (ends : ∀ d ∈ rest.head?, d.isDigit = false)
      (point : '.' ∉ cs → rest.head? ≠ some '.') : numberTail (cs ++ rest) = (cs, rest) := by
  obtain ⟨_, whole, own, rfl | ⟨places, fraction, rfl⟩⟩ := digits
  · obtain ⟨front, back⟩ := span_of_ends own _ ends
    have none : '.' ∉ cs := by
      intro mem
      have := List.all_eq_true.mp own _ mem
      exact absurd this (by decide)
    have point := point none
    unfold numberTail
    rw [front, back]
    split
    · exact absurd rfl point
    · rfl
  · have stops : ∀ d ∈ ('.' :: (places ++ rest)).head?, d.isDigit = false := by
      intro d first
      cases first
      rfl
    obtain ⟨front, back⟩ := span_of_ends own _ stops
    obtain ⟨after, left⟩ := span_of_ends fraction _ ends
    unfold numberTail
    rw [List.append_assoc, List.cons_append, front, back]
    simp only [after, left]

theorem quotedBody_closed (body : '"' ∉ cs) (rest : List Char) :
    quotedBody (cs ++ '"' :: rest) = (.quoted cs true, rest) := by
  have own : cs.all (· != '"') = true := by
    refine List.all_eq_true.mpr fun d mem => ?_
    simpa using fun (same : d = '"') => body (same ▸ mem)
  have stops : ∀ d ∈ ('"' :: rest).head?, (d != '"') = false := by
    intro d first
    cases first
    rfl
  obtain ⟨front, back⟩ := span_of_ends own _ stops
  unfold quotedBody
  rw [front, back]

theorem quotedBody_unclosed (body : '"' ∉ cs) : quotedBody cs = (.quoted cs false, []) := by
  have own : cs.all (· != '"') = true := by
    refine List.all_eq_true.mpr fun d mem => ?_
    simpa using fun (same : d = '"') => body (same ▸ mem)
  obtain ⟨_, back⟩ := span_of_ends own [] nofun
  rw [List.append_nil] at back
  unfold quotedBody
  rw [back]

theorem next_of_fits {p : Piece} {rest : List Char} (fits : p.Fits rest)
    (whole : c :: cs = p.slice ++ rest) : next c cs = (p, rest) := by
  cases fits with
  | symbol lone => exact next_symbol lone whole
  | blank own =>
    obtain ⟨rfl, rfl⟩ := List.cons.inj whole
    rw [next_of_plain (plain_of_class (.inl own)), nextPlain, if_pos own]
  | word start parts ends =>
    obtain ⟨rfl, rfl⟩ := List.cons.inj whole
    obtain ⟨front, back⟩ := span_of_ends parts _ ends
    have plain := plain_of_class (.inr (.inl start))
    rw [next_of_plain plain, nextPlain, if_neg (not_isBlank (.inl start)), if_pos start]
    exact congrArg₂ (fun body rest => (Piece.word c body, rest)) front back
  | number digits ends point =>
    obtain ⟨rfl, rfl⟩ := List.cons.inj whole
    have digit := digits.1
    have letter := isWordStart_of_isDigit digit
    have plain := plain_of_class (.inr (.inr (.inl digit)))
    rw [next_of_plain plain, nextPlain, if_neg (not_isBlank (.inr digit)), if_neg (by simp [letter]),
      if_pos digit]
    exact congrArg (fun tail => (Piece.number c tail.1, tail.2)) (numberTail_of_fits digits ends point)
  | @closed body rest inside =>
    have whole : c :: cs = '"' :: (body ++ '"' :: rest) := by simpa [slice] using whole
    cases whole
    exact quotedBody_closed inside rest
  | @unclosed body inside =>
    have whole : c :: cs = '"' :: body := by simpa [slice] using whole
    cases whole
    exact quotedBody_unclosed inside
  | stray other =>
    obtain ⟨rfl, rfl⟩ := List.cons.inj whole
    obtain ⟨blank, plain, word, digit, quote⟩ := other
    rw [next_of_plain plain, nextPlain, if_neg (by simp [blank]), if_neg (by simp [word]),
      if_neg (by simp [digit]), if_neg quote]

end Piece

/-- The text cut into pieces, each as long as it can be in front of the others. -/
inductive Tiling : List Char → List Piece → Prop where
  | nil : Tiling [] []
  | cons {p : Piece} {rest : List Char} (first : p.Fits rest) (others : Tiling rest ps) :
      Tiling (p.slice ++ rest) (p :: ps)

theorem Piece.Fits.tiling {p : Piece} (fits : p.Fits []) : Tiling p.slice [p] := by
  have whole := Tiling.cons fits .nil
  rwa [List.append_nil] at whole

theorem tiling_pieces (cs : List Char) : Tiling cs (pieces cs) := by
  fun_induction pieces cs with
  | case1 => exact .nil
  | case2 c cs ih =>
    have whole := Tiling.cons (Piece.next_fits c cs) ih
    rwa [Piece.slice_next] at whole

theorem Tiling.eq_pieces (h : Tiling cs ps) : ps = pieces cs := by
  induction h with
  | nil => rw [pieces]
  | @cons ps p rest first _ ih =>
    obtain ⟨c, tail, own⟩ := List.exists_cons_of_ne_nil p.slice_ne_nil
    have whole : p.slice ++ rest = c :: (tail ++ rest) := by rw [own, List.cons_append]
    rw [whole, pieces, Piece.next_of_fits first whole.symm, ih]

theorem Tiling.flatten (tiling : Tiling cs ps) : ps.flatMap Piece.slice = cs := by
  rw [tiling.eq_pieces, flatten_pieces]

theorem Tiling.exists_fits (h : Tiling cs ps) (mem : p ∈ ps) : ∃ rest, p.Fits rest := by
  induction h with
  | nil => cases mem
  | cons first _ ih =>
    rcases List.mem_cons.mp mem with rfl | mem
    · exact ⟨_, first⟩
    · exact ih mem

namespace Piece

/-- The pieces that become tokens of the program. -/
def isSpoken : Piece → Bool
  | blank _ | stray _ => false
  | _ => true

def isStray : Piece → Bool
  | stray _ => true
  | _ => false

theorem exists_of_isStray {p : Piece} (own : p.isStray = true) : ∃ c, p = .stray c := by
  cases p with
  | stray c => exact ⟨c, rfl⟩
  | _ => cases own

/-- The token that a piece makes on some line. A word makes a keyword if it is spelt like one, and a
string is without its quotes. -/
inductive Makes : Piece → Token → Prop where
  | symbol : Makes (.symbol s) ⟨.symbol s, String.ofList s.text, line⟩
  | keyword (reserved : w.text = String.ofList (c :: cs)) :
      Makes (.word c cs) ⟨.keyword w, String.ofList (c :: cs), line⟩
  | identifier (free : ∀ w : Keyword, w.text ≠ String.ofList (c :: cs)) :
      Makes (.word c cs) ⟨.identifier, String.ofList (c :: cs), line⟩
  | number : Makes (.number c cs) ⟨.number, String.ofList (c :: cs), line⟩
  | string : Makes (.quoted cs closed) ⟨.string, String.ofList cs, line⟩
  | stray : Makes (.stray c) ⟨.invalid, String.ofList [c], line⟩

theorem makes_token {p : Piece} (loud : p.kind ≠ .blank) (line : Int) :
    Makes p ⟨p.kind, String.ofList p.lexeme, line⟩ := by
  cases p with
  | blank c => exact absurd rfl loud
  | word c cs =>
    simp only [kind, lexeme, slice]
    split
    next w found => exact .keyword (Keyword.text_of_ofText? found)
    next none =>
      refine .identifier fun w spelt => ?_
      rw [← spelt, Keyword.ofText?_text] at none
      cases none
  | symbol s => exact .symbol
  | number c cs => exact .number
  | quoted cs closed => exact .string
  | stray c => exact .stray

theorem isSpoken_eq (p : Piece) : p.isSpoken = (p.kind != .blank && p.kind != .invalid) := by
  cases p with
  | word c cs =>
    simp only [isSpoken, kind]
    cases Keyword.ofText? (String.ofList (c :: cs)) <;> rfl
  | _ => rfl

theorem isStray_eq (p : Piece) : p.isStray = decide (p.kind = .invalid) := by
  cases p with
  | word c cs =>
    refine (decide_eq_false ?_).symm
    intro invalid
    simp only [kind] at invalid
    split at invalid <;> cases invalid
  | _ => rfl

end Piece

/-- Tokens chosen by their kinds are made by the pieces so chosen. -/
theorem made_tokensFrom (choose : TokenKind → Bool) (quiet : choose .blank = false) (line : Nat)
    (ps : List Piece) : List.Forall₂ Piece.Makes (ps.filter fun p => choose p.kind)
      ((tokensFrom line ps).filter fun t => choose t.kind) := by
  induction ps generalizing line with
  | nil => exact .nil
  | cons p ps ih =>
    rw [tokensFrom]
    cases chosen : choose p.kind with
    | false =>
      rw [List.filter_cons_of_neg (by simp [chosen]), List.filter_cons_of_neg (by simp [chosen])]
      exact ih _
    | true =>
      rw [List.filter_cons_of_pos (by simp [chosen]), List.filter_cons_of_pos (by simp [chosen])]
      refine .cons (Piece.makes_token ?_ _) (ih _)
      intro blank
      rw [blank, quiet] at chosen
      cases chosen

namespace Source

theorem made_body (source : String) : List.Forall₂ Piece.Makes
    ((pieces source.toList).filter Piece.isSpoken) (stream source).body := by
  have chosen := made_tokensFrom (fun k => k != .blank && k != .invalid) rfl 1
    (pieces source.toList)
  rwa [← funext Piece.isSpoken_eq] at chosen

theorem made_strays (source : String) : List.Forall₂ Piece.Makes
    ((pieces source.toList).filter Piece.isStray) (strays source) := by
  have chosen := made_tokensFrom (fun k => decide (k = .invalid)) rfl 1
    (pieces source.toList)
  rwa [← funext Piece.isStray_eq] at chosen

/-- Every text has exactly one tiling. The tokens of the program are made by its pieces in order, but
for blanks and strays, with an end of input behind them; the strays are reported, in order. -/
theorem only_tiling (source : String) : ∃ ps, Tiling source.toList ps ∧
    (∀ qs, Tiling source.toList qs → qs = ps) ∧
    ps.flatMap Piece.slice = source.toList ∧ (∀ p ∈ ps, p.slice ≠ []) ∧
    (∃ body line, (stream source).toList = body ++ [⟨.endOfInput, "", line⟩] ∧
      List.Forall₂ Piece.Makes (ps.filter Piece.isSpoken) body) ∧
    List.Forall₂ Piece.Makes (ps.filter Piece.isStray) (strays source) := by
  refine ⟨pieces source.toList, tiling_pieces _, fun _ => Tiling.eq_pieces, flatten_pieces _,
    fun p _ => p.slice_ne_nil, ⟨(stream source).body, _, rfl, made_body source⟩, made_strays source⟩

/-- A second point is no part of a number, nor a second equals sign of a comparison. -/
example : pieces "1.5.x1>==".toList = [.number '1' ['.', '5'], .symbol .dot, .word 'x' ['1'],
    .symbol .greaterEqual, .symbol .equal] := by cbv

end Source

end Scriptlet
