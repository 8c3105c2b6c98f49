import Scriptlet.Proofs.Token.Seam

/-! Where tokens stand. A piece starts right behind the piece in front of it, and the token made of
it stands on the line on which its slice ends: the line that the line feeds up to there lead to. So
no token stands above one that comes before it. -/
namespace Scriptlet

/-- The pieces of a run that starts at a given place in a text, each with the place of its first
character. -/
def placedFrom (start : Nat) : List Piece → List (Nat × Piece)
  | [] => []
  | p :: ps => (start, p) :: placedFrom (start + p.slice.length) ps

theorem mem_placedFrom {start place : Nat} {p : Piece} {ps : List Piece}
    (mem : (place, p) ∈ placedFrom start ps) : ∃ front back,
      ps = front ++ p :: back ∧ place = start + (front.flatMap Piece.slice).length := by
  induction ps generalizing start with
  | nil => cases mem
  | cons q ps ih =>
    rcases List.mem_cons.mp mem with same | mem
    · cases same
      exact ⟨[], ps, rfl, rfl⟩
    · obtain ⟨front, back, rfl, rfl⟩ := ih mem
      refine ⟨q :: front, back, rfl, ?_⟩
      rw [List.flatMap_cons, List.length_append, Nat.add_assoc]

/-- The token is made of the piece that starts at this place of the text, and its line is the one on
which the slice of the piece ends. The slice is on one line, unless it is a string. -/
structure Stands (text : List Char) (place : Nat) (p : Piece) (t : Token) : Prop where
  made : p.Makes t
  slice : p.slice <+: text.drop place
  line : t.line = 1 + newlines (text.take (place + p.slice.length))
  level : t.kind ≠ .string → newlines p.slice = 0

theorem Piece.Fits.newlines_slice {p : Piece} (fits : p.Fits rest) (loud : p.kind ≠ .blank)
    (unquoted : p.kind ≠ .string) : newlines p.slice = 0 := by
  cases p with
  | blank _ => exact absurd rfl loud
  | quoted _ _ => exact absurd rfl unquoted
  | stray c =>
    cases fits with
    | stray own =>
      have other : c ≠ '\n' := by
        rintro rfl
        exact absurd own.1 (by decide)
      exact List.count_eq_zero.mpr fun mem => other (List.mem_singleton.mp mem).symm
  | symbol _ | word _ _ | number _ _ =>
    refine List.count_eq_zero.mpr (fits.notMem_slice rfl (fun _ _ same => ?_) (.inr rfl))
    cases same

/-- Tokens chosen by their kinds stand where the pieces so chosen are. -/
theorem stands_tokensFrom (choose : TokenKind → Bool) (quiet : choose .blank = false)
    {rest text : List Char} {ps : List Piece} (tiling : Tiling rest ps) (front : List Char)
    (whole : front ++ rest = text) :
    List.Forall₂ (fun x => Stands text x.1 x.2)
      ((placedFrom front.length ps).filter fun x => choose x.2.kind)
      ((tokensFrom (1 + newlines front) ps).filter fun t => choose t.kind) := by
  induction tiling generalizing front with
  | nil => exact .nil
  | @cons ps p rest first _ ih =>
    have whole : (front ++ p.slice) ++ rest = text := by rw [List.append_assoc, whole]
    have others := ih (front ++ p.slice) whole
    rw [List.length_append, newlines_append, ← Nat.add_assoc] at others
    rw [placedFrom, tokensFrom]
    cases chosen : choose p.kind with
    | false =>
      rw [List.filter_cons_of_neg (by simp [chosen]), List.filter_cons_of_neg (by simp [chosen])]
      exact others
    | true =>
      rw [List.filter_cons_of_pos (by simp [chosen]), List.filter_cons_of_pos (by simp [chosen])]
      have loud : p.kind ≠ .blank := by
        intro blank
        rw [blank, quiet] at chosen
        cases chosen
      refine .cons ⟨Piece.makes_token loud _, ?_, ?_, first.newlines_slice loud⟩ others
      · rw [← whole, List.append_assoc, List.drop_left]
        exact List.prefix_append p.slice rest
      · rw [← whole, ← List.length_append, List.take_left, newlines_append]
        simp only [Int.natCast_add, Int.natCast_one, Int.add_assoc]

theorem line_of_mem_tokensFrom {line : Nat} {ps : List Piece} {t : Token}
    (mem : t ∈ tokensFrom line ps) :
    line ≤ t.line ∧ t.line ≤ ↑(line + newlines (ps.flatMap Piece.slice)) := by
  induction ps generalizing line with
  | nil => cases mem
  | cons p ps ih =>
    rw [List.flatMap_cons, newlines_append]
    rcases List.mem_cons.mp mem with rfl | mem
    · constructor <;> dsimp only <;> omega
    · have bounds := ih mem
      omega

theorem pairwise_tokensFrom (line : Nat) (ps : List Piece) :
    (tokensFrom line ps).Pairwise (·.line ≤ ·.line) := by
  induction ps generalizing line with
  | nil => exact .nil
  | cons p ps ih => exact .cons (fun t mem => (line_of_mem_tokensFrom mem).1) (ih _)

namespace Source

theorem stands_body {source : String} (tiling : Tiling source.toList ps) :
    List.Forall₂ (fun x => Stands source.toList x.1 x.2)
      ((placedFrom 0 ps).filter (·.2.isSpoken)) (stream source).body := by
  obtain rfl := tiling.eq_pieces
  have chosen := stands_tokensFrom (fun k => k != .blank && k != .invalid) rfl tiling [] rfl
  rwa [← funext fun x : Nat × Piece => x.2.isSpoken_eq] at chosen

theorem stands_strays {source : String} (tiling : Tiling source.toList ps) :
    List.Forall₂ (fun x => Stands source.toList x.1 x.2)
      ((placedFrom 0 ps).filter (·.2.isStray)) (strays source) := by
  obtain rfl := tiling.eq_pieces
  have chosen := stands_tokensFrom (fun k => decide (k = .invalid)) rfl tiling [] rfl
  rwa [← funext fun x : Nat × Piece => x.2.isStray_eq] at chosen

theorem pairwise_toList (source : String) :
    (stream source).toList.Pairwise (·.line ≤ ·.line) := by
  refine List.pairwise_append.mpr
    ⟨(pairwise_tokensFrom 1 _).filter _, List.pairwise_singleton _ _, ?_⟩
  intro t mem stop last
  obtain rfl := List.mem_singleton.mp last
  have bound := (line_of_mem_tokensFrom (List.mem_filter.mp mem).1).2
  rwa [flatten_pieces] at bound

/-- Each token of a text, and each stray character, stands on the line on which its slice ends, and
the end of input on the last line. So lines never decrease from token to token. -/
theorem lines_of_slices (source : String) : ∃ ps, Tiling source.toList ps ∧
    List.Forall₂ (fun x => Stands source.toList x.1 x.2)
      ((placedFrom 0 ps).filter (·.2.isSpoken)) (stream source).body ∧
    List.Forall₂ (fun x => Stands source.toList x.1 x.2)
      ((placedFrom 0 ps).filter (·.2.isStray)) (strays source) ∧
    (stream source).toList =
      (stream source).body ++ [⟨.endOfInput, "", 1 + newlines source.toList⟩] ∧
    (stream source).toList.Pairwise (·.line ≤ ·.line) := by
  have tiling := tiling_pieces source.toList
  exact ⟨_, tiling, stands_body tiling, stands_strays tiling, rfl, pairwise_toList source⟩

/-- A string over two lines stands on the second, and so does what comes behind it. -/
example : (stream "a \"\n\" b").toList.map (·.line) = [1, 2, 2, 2] := by cbv

end Source

end Scriptlet
