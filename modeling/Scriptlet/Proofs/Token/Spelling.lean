import Scriptlet.Proofs.Token.Seam

/-! The words of a text written out again, with a blank between each two of them and strings in
quotes. Every token is scanned again from what is written for it, in whatever company it stands, so
the text has the same words as before, and no strays. -/
namespace Scriptlet

/-- How a word is written in a text: a string stands in quotes. -/
def spelling (w : TokenKind × String) : String :=
  if w.1 = .string then "\"" ++ w.2 ++ "\"" else w.2

namespace Piece

variable {p : Piece} {rest more : List Char}

/-- The word that the token made of a piece has. -/
def wording (p : Piece) : TokenKind × String := (p.kind, String.ofList p.lexeme)

/-- The same piece, with the quote that an open string lacks. -/
def shut : Piece → Piece
  | quoted body _ => quoted body true
  | p => p

theorem shut_of_not_open (closed : ¬ p.IsOpen) : p.shut = p := by
  cases p with
  | quoted body shut =>
    cases shut with
    | true => rfl
    | false => exact absurd ⟨body, rfl⟩ closed
  | _ => rfl

theorem Fits.shut (fits : p.Fits rest) (other : Apart more) : p.shut.Fits more := by
  by_cases unclosed : p.IsOpen
  · obtain ⟨body, rfl⟩ := unclosed
    cases fits with
    | unclosed inside => exact .closed inside
  · rw [shut_of_not_open unclosed]
    exact fits.apart unclosed other

theorem wording_shut (p : Piece) : p.shut.wording = p.wording := by
  cases p <;> rfl

theorem isSpoken_shut (p : Piece) : p.shut.isSpoken = p.isSpoken := by
  cases p <;> rfl

theorem kind_word_ne_string (c : Char) (cs : List Char) : (word c cs).kind ≠ .string := by
  intro string
  simp only [kind] at string
  split at string <;> cases string

/-- What is written for a piece is the slice that it covers once it is shut. -/
theorem spelling_wording (spoken : p.isSpoken = true) :
    (spelling p.wording).toList = p.shut.slice := by
  cases p with
  | blank _ | stray _ => cases spoken
  | quoted body _ => simp [spelling, wording, kind, lexeme, shut, slice]
  | word c cs => simp [spelling, wording, kind_word_ne_string, lexeme, shut, slice]
  | symbol s => simp [spelling, wording, kind, lexeme, shut, slice]
  | number c cs => simp [spelling, wording, kind, lexeme, shut, slice]

end Piece

theorem words_tokensFrom (line : Nat) (ps : List Piece) :
    (tokensFrom line ps).map Token.word = ps.map Piece.wording := by
  induction ps generalizing line with
  | nil => rfl
  | cons p ps ih =>
    rw [tokensFrom, List.map_cons, List.map_cons, ih]
    rfl

/-- The slices of pieces, each of which ends somewhere, end at the blanks put between them. -/
theorem exists_tiling_spaced {ps : List Piece}
    (own : ∀ p ∈ ps, p.isSpoken = true ∧ ∃ rest, p.Fits rest) : ∃ qs,
      Tiling ([' '].intercalate (ps.map fun p => p.shut.slice)) qs ∧
        qs.filter Piece.isSpoken = ps.map Piece.shut ∧ qs.filter Piece.isStray = [] := by
  induction ps with
  | nil => exact ⟨[], .nil, rfl, rfl⟩
  | cons p ps ih =>
    obtain ⟨⟨spoken, _, fits⟩, others⟩ := List.forall_mem_cons.mp own
    obtain ⟨qs, tiling, said, silent⟩ := ih others
    have loud : p.shut.isSpoken = true := by rw [Piece.isSpoken_shut, spoken]
    have known : p.shut.isStray = false := by
      rw [Bool.eq_false_iff]
      intro stray
      obtain ⟨c, same⟩ := Piece.exists_of_isStray stray
      rw [same] at loud
      cases loud
    by_cases last : ps = []
    · subst last
      rw [List.map_singleton, List.intercalate_singleton]
      exact ⟨[p.shut], (fits.shut Piece.apart_nil).tiling, by simp [loud], by simp [known]⟩
    · have more : ps.map (fun p => p.shut.slice) ≠ [] := by simpa using last
      have front := fits.shut (Piece.apart_of_isBlank (c := ' ') rfl
        ([' '].intercalate (ps.map fun p => p.shut.slice)))
      rw [List.map_cons, List.intercalate_cons_of_ne_nil more, List.append_assoc]
      refine ⟨p.shut :: .blank ' ' :: qs, .cons front (.cons (.blank rfl) tiling), ?_, ?_⟩
      · rw [List.filter_cons_of_pos loud, List.filter_cons_of_neg (by decide), said, List.map_cons]
      · rw [List.filter_cons_of_neg (by simp [known]), List.filter_cons_of_neg (by decide), silent]

namespace Source

theorem words_body (source : String) : (stream source).body.map Token.word =
    ((pieces source.toList).filter Piece.isSpoken).map Piece.wording := by
  have words := congrArg (List.filter fun w => w.1 != .blank && w.1 != .invalid)
    (words_tokensFrom 1 (pieces source.toList))
  rw [List.filter_map, List.filter_map] at words
  rw [funext Piece.isSpoken_eq]
  exact words

/-- The words of a text, with a blank between each two of them. -/
def respelled (source : String) : String :=
  " ".intercalate ((stream source).body.map fun t => spelling t.word)

theorem toList_respelled (source : String) : (respelled source).toList =
    [' '].intercalate
      (((pieces source.toList).filter Piece.isSpoken).map fun p => p.shut.slice) := by
  have written := congrArg (List.map spelling) (words_body source)
  rw [List.map_map, List.map_map] at written
  rw [respelled, String.toList_intercalate]
  change [' '].intercalate (((stream source).body.map (spelling ∘ Token.word)).map _) = _
  rw [written, List.map_map]
  congr 1
  refine List.map_congr_left fun p mem => ?_
  exact Piece.spelling_wording (List.mem_filter.mp mem).2

theorem pieces_respelled (source : String) :
    (pieces (respelled source).toList).filter Piece.isSpoken =
        ((pieces source.toList).filter Piece.isSpoken).map Piece.shut ∧
      (pieces (respelled source).toList).filter Piece.isStray = [] := by
  have own : ∀ p ∈ (pieces source.toList).filter Piece.isSpoken,
      p.isSpoken = true ∧ ∃ rest, p.Fits rest := by
    intro p mem
    obtain ⟨mem, spoken⟩ := List.mem_filter.mp mem
    exact ⟨spoken, (tiling_pieces source.toList).exists_fits mem⟩
  obtain ⟨qs, tiling, said, silent⟩ := exists_tiling_spaced own
  rw [toList_respelled, ← tiling.eq_pieces]
  exact ⟨said, silent⟩

theorem words_respelled (source : String) :
    (stream (respelled source)).body.map Token.word = (stream source).body.map Token.word := by
  rw [words_body, words_body, (pieces_respelled source).1, List.map_map]
  exact List.map_congr_left fun p _ => p.wording_shut

/-- A text whose words are written out again, with a blank between each two of them and strings in
quotes, has these words and an end of input, and no strays. -/
theorem respelled_rescanned (source : String) :
    (stream (respelled source)).toList.map Token.word = (stream source).toList.map Token.word ∧
      strays (respelled source) = [] := by
  constructor
  · rw [TokenStream.toList, TokenStream.toList, List.map_append, List.map_append, words_respelled]
    rfl
  · have made := made_strays (respelled source)
    rw [(pieces_respelled source).2] at made
    exact List.forall₂_nil_left_iff.mp made

/-- A point behind a number with a point, an equals sign behind an operator, a string left open. -/
example : respelled "1.2.x>==\"a" = "1.2 . x >= = \"a\"" := by cbv

/-- Written out once more the text stays as it is. -/
theorem respelled_respelled (source : String) :
    respelled (respelled source) = respelled source := by
  have written := congrArg (List.map spelling) (words_respelled source)
  rw [List.map_map, List.map_map] at written
  exact congrArg (" ".intercalate ·) written

end Source

end Scriptlet
