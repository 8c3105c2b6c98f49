import Scriptlet.Proofs.Token.Seam

/-! The kind of a token shows in its text, strings apart: scanned by itself, the lexeme is one piece, and
that piece is of the token's kind. Nor does such a lexeme hold a blank or, unless it is one, a
parenthesis. -/
namespace Scriptlet

/-- The kind of the one piece that a text is cut into. -/
def TokenKind.ofText (text : List Char) : TokenKind :=
  match pieces text with
  | [p] => p.kind
  | _ => .invalid

/-- The kinds of token whose lexemes are words: all but strings, and parentheses, which are marks. -/
def TokenKind.isWord : TokenKind → Bool
  | string | symbol .leftParen | symbol .rightParen => false
  | _ => true

/-- Characters that set the words of a rendered form apart. -/
def isMark (c : Char) : Bool := c == ' ' || c == '(' || c == ')'

theorem all_unmarked_iff {text : List Char} :
    text.all (!isMark ·) = true ↔ ∀ c ∈ text, isMark c = false := by
  simp only [List.all_eq_true, Bool.not_eq_true']

namespace Piece

theorem ne_quoted_of_isWord {p : Piece} (word : p.kind.isWord = true) (body : List Char)
    (shut : Bool) : p ≠ .quoted body shut := by
  rintro rfl
  cases word

theorem lexeme_eq {p : Piece} (unquoted : ∀ body shut, p ≠ .quoted body shut) :
    p.lexeme = p.slice := by
  cases p with
  | quoted body shut => exact absurd rfl (unquoted body shut)
  | _ => rfl

/-- The words of a program hold no marks. -/
theorem Fits.isMark_eq_false {p : Piece} (fits : p.Fits rest) (spoken : p.isSpoken = true)
    (word : p.kind.isWord = true) : ∀ c ∈ p.slice, isMark c = false := by
  intro c mem
  by_contra marked
  have mark : c = ' ' ∨ c = '(' ∨ c = ')' := by
    simpa only [isMark, Bool.not_eq_false, Bool.or_eq_true, beq_iff_eq, or_assoc] using marked
  have foreign : isWordPart c = false ∧ Numeral.plain c = false := by
    rcases mark with rfl | rfl | rfl <;> decide
  refine fits.notMem_of_other spoken (ne_quoted_of_isWord word) foreign.1 foreign.2
    (fun s same => ?_) mem
  subst same
  cases s with
  | leftParen | rightParen => cases word
  | _ => rcases mark with rfl | rfl | rfl <;> decide

end Piece

namespace Token

/-- A token whose kind shows in its lexeme, which holds no mark. -/
structure Legible (t : Token) : Prop where
  kind : TokenKind.ofText t.lexeme.toList = t.kind
  unmarked : ∀ c ∈ t.lexeme.toList, isMark c = false

end Token

theorem exists_of_mem_tokensFrom {line : Nat} {ps : List Piece} {t : Token}
    (mem : t ∈ tokensFrom line ps) :
    ∃ p ∈ ps, t.kind = p.kind ∧ t.lexeme = String.ofList p.lexeme := by
  induction ps generalizing line with
  | nil => cases mem
  | cons p ps ih =>
    rcases List.mem_cons.mp mem with rfl | mem
    · exact ⟨p, List.mem_cons_self, rfl, rfl⟩
    · obtain ⟨q, own, kind, lexeme⟩ := ih mem
      exact ⟨q, List.mem_cons_of_mem p own, kind, lexeme⟩

/-- The tokens of a text are legible, but for strings and parentheses. -/
theorem Source.legible_of_mem {source : String} {t : Token} (mem : t ∈ (stream source).body)
    (word : t.kind.isWord = true) : t.Legible := by
  obtain ⟨scanned, loud⟩ := List.mem_filter.mp mem
  obtain ⟨p, own, kind, lexeme⟩ := exists_of_mem_tokensFrom scanned
  obtain ⟨rest, fits⟩ := (tiling_pieces source.toList).exists_fits own
  rw [kind] at word loud
  rw [← p.isSpoken_eq] at loud
  have unquoted := Piece.ne_quoted_of_isWord word
  have text : t.lexeme.toList = p.slice := by
    rw [lexeme, String.toList_ofList, Piece.lexeme_eq unquoted]
  constructor
  · have closed : ¬ p.IsOpen := by
      rintro ⟨body, same⟩
      exact unquoted body false same
    have alone := (fits.apart closed Piece.apart_nil).tiling
    rw [text, TokenKind.ofText, ← alone.eq_pieces, kind]
  · rw [text]
    exact fits.isMark_eq_false loud word

end Scriptlet
