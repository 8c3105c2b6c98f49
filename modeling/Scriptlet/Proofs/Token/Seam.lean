import Scriptlet.Proofs.Token.Numeral

/-! Where two texts are joined. A piece ends in front of every text that cannot make it longer, so
the pieces of the whole are those of its parts, unless the first part leaves a string open; whether
it does is decided by the number of its quotes. Joined by a line feed, the tokens of the whole are
those of the first text and those of the second on later lines. -/
namespace Scriptlet

namespace Piece

/-- A string that runs to the end of the text. -/
def IsOpen (p : Piece) : Prop := ∃ body, p = .quoted body false

/-- The text starts with no character that could be part of a piece in front of it. -/
def Apart (rest : List Char) : Prop :=
  ∀ d ∈ rest.head?, isWordPart d = false ∧ d.isDigit = false ∧ d ≠ '.' ∧ d ≠ '='

theorem apart_nil : Apart [] := by
  intro _ first
  cases first

theorem apart_of_isBlank {c : Char} (blank : isBlank c = true) (rest : List Char) :
    Apart (c :: rest) := by
  intro d first
  cases first
  simp only [isBlank, Bool.or_eq_true, beq_iff_eq] at blank
  rcases blank with ((rfl | rfl) | rfl) | rfl <;> decide

variable {p : Piece} {cs rest more : List Char}

theorem Fits.apart (fits : p.Fits rest) (closed : ¬ p.IsOpen) (other : Apart more) :
    p.Fits more := by
  cases fits with
  | blank own => exact .blank own
  | symbol _ => exact .symbol fun _ equal => absurd rfl (other _ equal).2.2.2
  | word start parts _ => exact .word start parts fun d first => (other d first).1
  | number digits _ _ =>
    exact .number digits (fun d first => (other d first).2.1)
      fun _ point => absurd rfl (other _ point).2.2.1
  | closed body => exact .closed body
  | unclosed _ => exact absurd ⟨_, rfl⟩ closed
  | stray own => exact .stray own

/-- Of the text behind a piece only the first character matters. -/
theorem Fits.of_head?_eq (fits : p.Fits rest) (same : more.head? = rest.head?) : p.Fits more := by
  cases fits with
  | blank own => exact .blank own
  | symbol lone => exact .symbol (same ▸ lone)
  | word start parts ends => exact .word start parts (same ▸ ends)
  | number digits ends point => exact .number digits (same ▸ ends) (same ▸ point)
  | closed body => exact .closed body
  | unclosed body =>
    obtain rfl : more = [] := List.head?_eq_none_iff.mp same
    exact .unclosed body
  | stray own => exact .stray own

theorem Fits.append (fits : p.Fits cs) (closed : ¬ p.IsOpen) (other : Apart rest) :
    p.Fits (cs ++ rest) := by
  cases cs with
  | nil => exact fits.apart closed other
  | cons c cs => exact fits.of_head?_eq rfl

theorem isWordPart_of_isWordStart {c : Char} (start : isWordStart c = true) :
    isWordPart c = true := by
  simp only [isWordStart, isWordPart, Bool.or_eq_true] at start ⊢
  exact start.imp_left .inl

/-- What is no part of words, numbers or the symbol in question is not in the slice. -/
theorem Fits.notMem_of_other {d : Char} (fits : p.Fits rest) (spoken : p.isSpoken = true)
    (unquoted : ∀ body shut, p ≠ .quoted body shut) (word : isWordPart d = false)
    (numeral : Numeral.plain d = false) (symbol : ∀ s, p = .symbol s → d ∉ s.text) :
    d ∉ p.slice := by
  cases fits with
  | blank _ | stray _ => cases spoken
  | closed _ | unclosed _ => exact absurd rfl (unquoted _ _)
  | @symbol s _ _ => exact symbol s rfl
  | @word c cs rest start parts _ =>
    have own : (c :: cs).all isWordPart = true := by
      rw [List.all_cons, isWordPart_of_isWordStart start, parts]
      rfl
    intro mem
    have part := List.all_eq_true.mp own d mem
    rw [word] at part
    cases part
  | number digits _ _ =>
    intro mem
    have part := List.all_eq_true.mp (Numeral.plain_of_isNumber digits) d mem
    rw [numeral] at part
    cases part

/-- Quotes and line feeds are in no word, number or symbol. -/
theorem Fits.notMem_slice {d : Char} (fits : p.Fits rest) (spoken : p.isSpoken = true)
    (unquoted : ∀ body shut, p ≠ .quoted body shut) (mark : d = '"' ∨ d = '\n') :
    d ∉ p.slice := by
  rcases mark with rfl | rfl
  · refine fits.notMem_of_other spoken unquoted (by decide) (by decide) fun s _ => ?_
    cases s <;> decide
  · refine fits.notMem_of_other spoken unquoted (by decide) (by decide) fun s _ => ?_
    cases s <;> decide

/-- Quotes come in pairs, but for that of an open string. -/
theorem Fits.count_quote (fits : p.Fits rest) (closed : ¬ p.IsOpen) :
    p.slice.count '"' % 2 = 0 := by
  -- Only strings have quotes at all; blanks and strays are told apart because they are not spoken.
  by_cases plain : p.isSpoken = true ∧ ∀ body shut, p ≠ .quoted body shut
  · rw [List.count_eq_zero.mpr (fits.notMem_slice plain.1 plain.2 (.inl rfl))]
  cases fits with
  | @blank c _ own =>
    have other : c ≠ '"' := by
      rintro rfl
      exact absurd own (by decide)
    simp [slice, other]
  | stray own => simp [slice, own.2.2.2.2]
  | @closed body _ inside => simp [slice, List.count_eq_zero.mpr inside]
  | @unclosed body _ => exact absurd ⟨body, rfl⟩ closed
  | symbol _ | word _ _ _ | number _ _ _ =>
    refine absurd ⟨rfl, fun _ _ same => ?_⟩ plain
    cases same

end Piece

open Piece (Apart)

variable {cs rest : List Char} {ps qs : List Piece}

/-- Tilings of two texts make a tiling of the two joined, if no piece crosses the seam. -/
theorem Tiling.append (front : Tiling cs ps) (closed : ∀ p ∈ ps, ¬ p.IsOpen) (other : Apart rest)
    (back : Tiling rest qs) : Tiling (cs ++ rest) (ps ++ qs) := by
  induction front with
  | nil => exact back
  | cons first _ ih =>
    obtain ⟨shut, closed⟩ := List.forall_mem_cons.mp closed
    rw [List.append_assoc]
    exact .cons (first.append shut other) (ih closed)

/-- A text leaves a string open if the number of its quotes is odd. The string is the last piece. -/
theorem Tiling.open_or_even (tiling : Tiling cs ps) :
    (cs.count '"' % 2 = 1 ∧ ∃ front body, ps = front ++ [.quoted body false] ∧ '"' ∉ body) ∨
      cs.count '"' % 2 = 0 ∧ ∀ p ∈ ps, ¬ p.IsOpen := by
  induction tiling with
  | nil => exact .inr ⟨rfl, List.forall_mem_nil _⟩
  | @cons ps p rest first others ih =>
    rw [List.count_append]
    by_cases shut : p.IsOpen
    · obtain ⟨body, rfl⟩ := shut
      cases first with
      | unclosed inside =>
        obtain rfl : ps = [] := by rw [others.eq_pieces, pieces]
        exact .inl ⟨by simp [Piece.slice, List.count_eq_zero.mpr inside], [], body, rfl, inside⟩
    · have pairs := first.count_quote shut
      rcases ih with ⟨odd, front, body, rfl, inside⟩ | ⟨even, closed⟩
      · exact .inl ⟨by omega, p :: front, body, rfl, inside⟩
      · exact .inr ⟨by omega, List.forall_mem_cons.mpr ⟨shut, closed⟩⟩

/-- No piece crosses the seam. -/
theorem pieces_seam (more : List Char) {cs : List Char} (even : cs.count '"' % 2 = 0) :
    pieces (cs ++ '\n' :: more) = pieces cs ++ .blank '\n' :: pieces more := by
  have closed : ∀ p ∈ pieces cs, ¬ p.IsOpen := by
    rcases (tiling_pieces cs).open_or_even with ⟨odd, _⟩ | ⟨_, closed⟩
    · omega
    · exact closed
  have back : Tiling ('\n' :: more) (.blank '\n' :: pieces more) :=
    .cons (p := .blank '\n') (.blank rfl) (tiling_pieces more)
  exact ((tiling_pieces cs).append closed (Piece.apart_of_isBlank rfl more) back).eq_pieces.symm

theorem newlines_append (cs ds : List Char) : newlines (cs ++ ds) = newlines cs + newlines ds :=
  List.count_append

namespace Token

/-- What a token says, wherever it stands. -/
def word (t : Token) : TokenKind × String := (t.kind, t.lexeme)

/-- The same token so many lines further down. -/
def lowered (lines : Nat) (t : Token) : Token := { t with line := t.line + lines }

end Token

theorem tokensFrom_append (line : Nat) (ps qs : List Piece) : tokensFrom line (ps ++ qs) =
    tokensFrom line ps ++ tokensFrom (line + newlines (ps.flatMap Piece.slice)) qs := by
  induction ps generalizing line with
  | nil => rfl
  | cons p ps ih =>
    rw [List.cons_append, tokensFrom, tokensFrom, ih, List.flatMap_cons, newlines_append,
      Nat.add_assoc, List.cons_append]

theorem tokensFrom_lowered (line lines : Nat) (ps : List Piece) :
    tokensFrom (line + lines) ps = (tokensFrom line ps).map (Token.lowered lines) := by
  induction ps generalizing line with
  | nil => rfl
  | cons p ps ih =>
    have same : line + lines + newlines p.slice = line + newlines p.slice + lines := by omega
    rw [tokensFrom, tokensFrom, same, ih, List.map_cons]
    simp only [Token.lowered, Int.natCast_add]

namespace TokenStream

/-- The same tokens so many lines further down. -/
def lowered (lines : Nat) (s : TokenStream) : TokenStream where
  body := s.body.map (Token.lowered lines)
  stop := s.stop.lowered lines
  beyond := s.beyond.map (Token.lowered lines)
  open_body t mem := by
    obtain ⟨t, own, rfl⟩ := List.mem_map.mp mem
    exact s.open_body t own
  stop_kind := s.stop_kind

end TokenStream

namespace Source

/-- How many lines a text has, the one behind its last line feed included. -/
def lineCount (source : String) : Nat := 1 + newlines source.toList

/-- The tokens of a text in whose tiling a piece stands between the pieces of two texts. -/
theorem tokens_around {source a b : String} {p : Piece}
    (cut : pieces source.toList = pieces a.toList ++ p :: pieces b.toList) :
    tokens source = tokens a ++
      ⟨p.kind, String.ofList p.lexeme, ↑(lineCount a + newlines p.slice)⟩ ::
        (tokens b).map (Token.lowered (newlines a.toList + newlines p.slice)) := by
  have below : lineCount a + newlines p.slice = 1 + (newlines a.toList + newlines p.slice) :=
    Nat.add_assoc 1 _ _
  rw [tokens, cut, tokensFrom_append, flatten_pieces, tokensFrom]
  change tokens a ++ ⟨_, _, ↑(lineCount a + _)⟩ :: tokensFrom (lineCount a + _) _ = _
  rw [below, tokensFrom_lowered]
  rfl

variable {a : String}

theorem tokens_seam (even : a.toList.count '"' % 2 = 0) (b : String) :
    tokens (a ++ "\n" ++ b) = tokens a ++ ⟨.blank, "\n", ↑(lineCount a + 1)⟩ ::
      (tokens b).map (Token.lowered (lineCount a)) := by
  have text : (a ++ "\n" ++ b).toList = a.toList ++ '\n' :: b.toList := by simp
  have cut : pieces (a ++ "\n" ++ b).toList =
      pieces a.toList ++ .blank '\n' :: pieces b.toList := by
    rw [text, pieces_seam b.toList even]
  rw [tokens_around cut, lineCount, Nat.add_comm 1]
  rfl

theorem strays_seam (even : a.toList.count '"' % 2 = 0) (b : String) :
    strays (a ++ "\n" ++ b) = strays a ++ (strays b).map (Token.lowered (lineCount a)) := by
  rw [strays, tokens_seam even, List.filter_append, List.filter_cons_of_neg (by simp),
    List.filter_map]
  rfl

theorem body_seam (even : a.toList.count '"' % 2 = 0) (b : String) :
    (stream (a ++ "\n" ++ b)).body =
      (stream a).body ++ ((stream b).lowered (lineCount a)).body := by
  simp only [stream, TokenStream.lowered]
  rw [tokens_seam even, List.filter_append, List.filter_cons_of_neg (by simp), List.filter_map]
  rfl

theorem stop_seam (a b : String) :
    (stream (a ++ "\n" ++ b)).stop = ((stream b).lowered (lineCount a)).stop := by
  have text : (a ++ "\n" ++ b).toList = a.toList ++ '\n' :: b.toList := by simp
  have lines : newlines (a ++ "\n" ++ b).toList = newlines a.toList + (1 + newlines b.toList) := by
    rw [text, newlines_append, newlines, newlines, newlines, List.count_cons_self, Nat.add_comm 1]
  simp only [stream, TokenStream.lowered, Token.lowered, lines, lineCount, Token.mk.injEq, true_and]
  omega

/-- The last token of a text that leaves a string open. -/
theorem body_of_open {front : List Piece} {body : List Char}
    (tiling : Tiling a.toList (front ++ [.quoted body false])) :
    (stream a).body.getLast? = some ⟨.string, String.ofList body, lineCount a⟩ := by
  have lines : 1 + newlines (front.flatMap Piece.slice) +
      newlines (Piece.quoted body false).slice = lineCount a := by
    rw [lineCount, ← tiling.flatten, List.flatMap_append, newlines_append, List.flatMap_singleton,
      Nat.add_assoc]
  simp only [stream, tokens]
  rw [← tiling.eq_pieces, tokensFrom_append, List.filter_append, tokensFrom, lines]
  exact List.getLast?_concat

/-- Texts are scanned apart at line feeds. A text with an even number of quotes that is joined to
another by a line feed keeps its tokens, and behind them come those of the other on lower lines;
likewise its strays. If the number is odd then its last token is a string that nothing closes. -/
theorem scanned_apart (a b : String) :
    (a.toList.count '"' % 2 = 0 →
      (stream (a ++ "\n" ++ b)).toList =
          (stream a).body ++ (stream b).toList.map (Token.lowered (lineCount a)) ∧
        strays (a ++ "\n" ++ b) = strays a ++ (strays b).map (Token.lowered (lineCount a))) ∧
    (a.toList.count '"' % 2 = 1 → ∃ front body,
      Tiling a.toList (front ++ [.quoted body false]) ∧ '"' ∉ body ∧ body <:+ a.toList ∧
        (stream a).body.getLast? = some ⟨.string, String.ofList body, lineCount a⟩) := by
  have tiling := tiling_pieces a.toList
  constructor
  · intro even
    refine ⟨?_, strays_seam even b⟩
    rw [TokenStream.toList, body_seam even, stop_seam, TokenStream.toList, List.map_append,
      List.append_assoc]
    rfl
  · intro odd
    rcases tiling.open_or_even with ⟨_, front, body, last, inside⟩ | ⟨even, _⟩
    · rw [last] at tiling
      refine ⟨front, body, tiling, inside, ?_, body_of_open tiling⟩
      have whole := tiling.flatten
      rw [List.flatMap_append, List.flatMap_singleton] at whole
      exact ⟨front.flatMap Piece.slice ++ ['"'], by simpa [Piece.slice] using whole⟩
    · omega

end Source

end Scriptlet
