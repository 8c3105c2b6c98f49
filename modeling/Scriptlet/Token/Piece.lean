import Scriptlet.Token
import Scriptlet.Text.Letter
import Scriptlet.Text.Numeric

/-! The pieces of a source text: blanks, symbols, words, numbers, quoted strings and stray
characters, each as long as it can be. Cutting a text into pieces loses nothing
(`flatten_pieces`): the pieces in order spell the text. -/
namespace Scriptlet

/-- One piece of source text. A quoted string that is not closed runs to the end of the text. -/
inductive Piece where
  | blank (c : Char)
  | symbol (s : Symbol)
  | word (first : Char) (others : List Char)
  | number (first : Char) (others : List Char)
  | quoted (body : List Char) (closed : Bool)
  | stray (c : Char)
  deriving DecidableEq, Repr

def isBlank (c : Char) : Bool := c == ' ' || c == '\t' || c == '\r' || c == '\n'

def isWordStart (c : Char) : Bool := Text.isLetter c || c == '_'

def isWordPart (c : Char) : Bool := Text.isLetter c || Text.isNumeral c || c == '_'

namespace Piece

/-- The slice of source that a piece covers. -/
def slice : Piece → List Char
  | blank c => [c]
  | symbol s => s.text
  | word first others => first :: others
  | number first others => first :: others
  | quoted body closed => '"' :: body ++ if closed then ['"'] else []
  | stray c => [c]

/-- The rest of a number: a run of digits with at most one point in it or after it. -/
def numberTail (cs : List Char) : List Char × List Char :=
  let whole := cs.takeWhile Char.isDigit
  match cs.dropWhile Char.isDigit with
  | '.' :: rest => (whole ++ '.' :: rest.takeWhile Char.isDigit, rest.dropWhile Char.isDigit)
  | rest => (whole, rest)

def quotedBody (cs : List Char) : Piece × List Char :=
  match cs.dropWhile (· != '"') with
  | _ :: rest => (quoted (cs.takeWhile (· != '"')) true, rest)
  | [] => (quoted cs false, [])

/-- A piece that is not punctuation. -/
def nextPlain (c : Char) (cs : List Char) : Piece × List Char :=
  if isBlank c then (blank c, cs)
  else if isWordStart c then (word c (cs.takeWhile isWordPart), cs.dropWhile isWordPart)
  else if c.isDigit then
    let (text, rest) := numberTail cs
    (number c text, rest)
  else if c = '"' then quotedBody cs
  else (stray c, cs)

/-- The longest piece at the head of a text, and the text after it. -/
def next (c : Char) (cs : List Char) : Piece × List Char :=
  match Symbol.ofChar? c with
  | some s => (symbol s, cs)
  | none =>
    match Symbol.pairOfChar? c with
    | some (alone, doubled) =>
      match cs with
      | '=' :: rest => (symbol doubled, rest)
      | _ => (symbol alone, cs)
    | none => nextPlain c cs

theorem append_numberTail (cs : List Char) : (numberTail cs).1 ++ (numberTail cs).2 = cs := by
  unfold numberTail
  have whole := cs.takeWhile_append_dropWhile (p := Char.isDigit)
  split
  next rest h =>
    rw [h] at whole
    simpa [List.takeWhile_append_dropWhile] using whole
  next => exact whole

theorem slice_quotedBody (cs : List Char) :
    (quotedBody cs).1.slice ++ (quotedBody cs).2 = '"' :: cs := by
  unfold quotedBody
  have whole := cs.takeWhile_append_dropWhile (p := (· != '"'))
  split
  next c rest h =>
    have hc : c = '"' := by
      have := List.head_dropWhile_not (· != '"') (by simp [h] : cs.dropWhile (· != '"') ≠ [])
      simpa [h] using this
    rw [h, hc] at whole
    simpa [slice] using whole
  next => simp [slice]

theorem slice_nextPlain (c : Char) (cs : List Char) :
    (nextPlain c cs).1.slice ++ (nextPlain c cs).2 = c :: cs := by
  unfold nextPlain
  split
  · rfl
  split
  · simp [slice, List.takeWhile_append_dropWhile]
  split
  · simpa [slice] using append_numberTail cs
  split
  next h => rw [h]; exact slice_quotedBody cs
  · rfl

theorem text_of_ofChar? {c : Char} {s : Symbol} (h : Symbol.ofChar? c = some s) :
    s.text = [c] := by
  unfold Symbol.ofChar? at h
  split at h <;> simp at h <;> subst h <;> rfl

theorem text_of_pairOfChar? {c : Char} {alone doubled : Symbol}
    (h : Symbol.pairOfChar? c = some (alone, doubled)) :
    alone.text = [c] ∧ doubled.text = [c, '='] := by
  unfold Symbol.pairOfChar? at h
  split at h <;> simp at h <;> obtain ⟨rfl, rfl⟩ := h <;> exact ⟨rfl, rfl⟩

/-- The next piece and what follows it make up the text. -/
theorem slice_next (c : Char) (cs : List Char) :
    (next c cs).1.slice ++ (next c cs).2 = c :: cs := by
  unfold next
  split
  next s h => simp [slice, text_of_ofChar? h]
  split
  next alone doubled h =>
    split
    · simp [slice, (text_of_pairOfChar? h).2]
    · simp [slice, (text_of_pairOfChar? h).1]
  exact slice_nextPlain c cs

theorem slice_ne_nil (p : Piece) : p.slice ≠ [] := by
  cases p with
  | symbol s => cases s <;> simp [slice, Symbol.text]
  | _ => simp [slice]

theorem length_next_lt (c : Char) (cs : List Char) : (next c cs).2.length < (c :: cs).length := by
  have whole := congrArg List.length (slice_next c cs)
  have filled := List.length_pos_iff.2 (slice_ne_nil (next c cs).1)
  rw [List.length_append] at whole
  omega

end Piece

/-- A text cut into its pieces. -/
def pieces : List Char → List Piece
  | [] => []
  | c :: cs => (Piece.next c cs).1 :: pieces (Piece.next c cs).2
  termination_by cs => cs.length
  decreasing_by exact Piece.length_next_lt c cs

/-- Nothing is lost: the pieces of a text spell it. -/
theorem flatten_pieces (cs : List Char) : (pieces cs).flatMap Piece.slice = cs := by
  fun_induction pieces cs with
  | case1 => rfl
  | case2 c cs ih => rw [List.flatMap_cons, ih, Piece.slice_next]

end Scriptlet
