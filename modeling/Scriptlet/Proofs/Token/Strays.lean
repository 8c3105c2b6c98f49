import Scriptlet.Proofs.Token.Places

/-! A stray character is a blank that is reported. It keeps the tokens on its two sides apart, and a
text in which blanks take the places of some strays has the same tokens on the same lines; the other
strays are still reported. Inside a string no character is a stray. -/
namespace Scriptlet

namespace Piece

variable {p : Piece} {cs rest : List Char}

theorem length_slice_pos (p : Piece) : 0 < p.slice.length := List.length_pos_iff.mpr p.slice_ne_nil

theorem Fits.not_open (fits : p.Fits rest) (more : rest ≠ []) : ¬ p.IsOpen := by
  rintro ⟨body, rfl⟩
  cases fits with
  | unclosed _ => exact more rfl

/-- A piece also ends where the text is cut off behind it. -/
theorem Fits.cut (fits : p.Fits (cs ++ rest)) (more : rest ≠ []) : p.Fits cs := by
  cases cs with
  | nil => exact fits.apart (fits.not_open more) apart_nil
  | cons c cs => exact fits.of_head?_eq rfl

end Piece

/-- The pieces in front of a piece, and those behind it, are tilings of what they spell. -/
theorem Tiling.around (tiling : Tiling cs (ps ++ p :: qs)) :
    Tiling (ps.flatMap Piece.slice) ps ∧ Tiling (qs.flatMap Piece.slice) qs := by
  induction ps generalizing cs with
  | nil =>
    cases tiling with
    | cons _ others => exact ⟨.nil, by rwa [others.flatten]⟩
  | cons q ps ih =>
    cases tiling with
    | cons first others =>
      have others : Tiling _ (ps ++ p :: qs) := others
      obtain ⟨front, back⟩ := ih others
      rw [← others.flatten, List.flatMap_append] at first
      refine ⟨.cons (first.cut ?_) front, back⟩
      rw [List.flatMap_cons]
      exact List.append_ne_nil_of_left_ne_nil p.slice_ne_nil _

/-- The places of the stray characters of a run of pieces that starts at a given place. -/
def strayPlacesFrom (start : Nat) (ps : List Piece) : List Nat :=
  ((placedFrom start ps).filter (·.2.isStray)).map (·.1)

/-- A run of text that starts at a given place, with a blank in each of these places. -/
def blankedFrom (places : List Nat) (start : Nat) (cs : List Char) : List Char :=
  cs.mapIdx fun i c => if start + i ∈ places then ' ' else c

/-- A run of pieces that starts at a given place, with a blank for each at one of these places. -/
def withBlanks (places : List Nat) (start : Nat) : List Piece → List Piece
  | [] => []
  | p :: ps =>
    (if start ∈ places then .blank ' ' else p) :: withBlanks places (start + p.slice.length) ps

section Places

variable {start place : Nat} {p : Piece} {ps : List Piece}

theorem strayPlacesFrom_cons (start : Nat) (p : Piece) (ps : List Piece) :
    strayPlacesFrom start (p :: ps) =
      (if p.isStray then [start] else []) ++ strayPlacesFrom (start + p.slice.length) ps := by
  simp only [strayPlacesFrom, placedFrom, List.filter_cons]
  split <;> rfl

theorem mem_strayPlacesFrom_cons : place ∈ strayPlacesFrom start (p :: ps) ↔
    p.isStray = true ∧ place = start ∨ place ∈ strayPlacesFrom (start + p.slice.length) ps := by
  rw [strayPlacesFrom_cons, List.mem_append]
  split <;> simp [*]

theorem exists_of_mem_strayPlacesFrom (mem : place ∈ strayPlacesFrom start ps) : ∃ front c back,
    ps = front ++ .stray c :: back ∧ place = start + (front.flatMap Piece.slice).length := by
  obtain ⟨⟨_, p⟩, own, rfl⟩ := List.mem_map.mp mem
  obtain ⟨placed, stray⟩ := List.mem_filter.mp own
  obtain ⟨c, rfl⟩ := Piece.exists_of_isStray stray
  obtain ⟨front, back, whole, place⟩ := mem_placedFrom placed
  exact ⟨front, c, back, whole, place⟩

theorem le_of_mem_strayPlacesFrom (mem : place ∈ strayPlacesFrom start ps) : start ≤ place := by
  obtain ⟨_, _, _, _, rfl⟩ := exists_of_mem_strayPlacesFrom mem
  exact Nat.le_add_right _ _

end Places

theorem newlines_stray (first : (Piece.stray c).Fits rest) : newlines (Piece.stray c).slice = 0 :=
  first.newlines_slice (fun blank => by cases blank) fun string => by cases string

section Blanked

variable {places : List Nat} {start : Nat} {p : Piece} {ps : List Piece}

theorem blankedFrom_append (cs ds : List Char) : blankedFrom places start (cs ++ ds) =
    blankedFrom places start cs ++ blankedFrom places (start + cs.length) ds := by
  simp only [blankedFrom, List.mapIdx_append]
  congr 2
  funext i c
  rw [Nat.add_comm i, Nat.add_assoc]

theorem blankedFrom_of_notMem {cs : List Char}
    (free : ∀ i < cs.length, start + i ∉ places) : blankedFrom places start cs = cs := by
  refine List.ext_getElem List.length_mapIdx fun i _ inside => ?_
  simp only [blankedFrom, List.getElem_mapIdx, if_neg (free i inside)]

/-- A piece that ends in front of a text also does in front of that text with blanks in it. -/
theorem Piece.Fits.blanked (fits : p.Fits rest) (places : List Nat) (start : Nat) :
    p.Fits (blankedFrom places start rest) := by
  cases rest with
  | nil => exact fits
  | cons d rest =>
    have shut := fits.not_open (List.cons_ne_nil d rest)
    rw [blankedFrom, List.mapIdx_cons]
    split
    · exact fits.apart shut (apart_of_isBlank rfl _)
    · exact fits.of_head?_eq rfl

/-- All the places from a given one on are those of stray characters in this run of pieces. -/
def OnlyStrays (places : List Nat) (start : Nat) (ps : List Piece) : Prop :=
  ∀ i ∈ places, start ≤ i → i ∈ strayPlacesFrom start ps

theorem OnlyStrays.tail (own : OnlyStrays places start (p :: ps)) :
    OnlyStrays places (start + p.slice.length) ps := by
  intro i mem behind
  have filled := p.length_slice_pos
  rcases mem_strayPlacesFrom_cons.mp (own i mem (by omega)) with ⟨_, rfl⟩ | later
  · omega
  · exact later

theorem OnlyStrays.head (own : OnlyStrays places start (p :: ps)) (mem : start ∈ places) :
    ∃ c, p = .stray c := by
  have filled := p.length_slice_pos
  rcases mem_strayPlacesFrom_cons.mp (own start mem (Nat.le_refl _)) with ⟨stray, _⟩ | later
  · exact Piece.exists_of_isStray stray
  · have := le_of_mem_strayPlacesFrom later
    omega

/-- A piece that is not replaced as a whole is not touched. -/
theorem OnlyStrays.slice (own : OnlyStrays places start (p :: ps)) (free : start ∉ places) :
    blankedFrom places start p.slice = p.slice := by
  refine blankedFrom_of_notMem fun i inside mem => ?_
  rcases mem_strayPlacesFrom_cons.mp (own _ mem (Nat.le_add_right _ _)) with ⟨_, same⟩ | later
  · exact free (same ▸ mem)
  · have := le_of_mem_strayPlacesFrom later
    omega

theorem blankedFrom_stray {c : Char} (mem : start ∈ places) :
    blankedFrom places start (Piece.stray c).slice = [' '] := by
  simp [blankedFrom, Piece.slice, mem]

theorem Tiling.blanked (tiling : Tiling cs ps) (own : OnlyStrays places start ps) :
    Tiling (blankedFrom places start cs) (withBlanks places start ps) := by
  induction tiling generalizing start with
  | nil => exact .nil
  | @cons ps p rest first _ ih =>
    rw [blankedFrom_append, withBlanks]
    have others := ih own.tail
    by_cases chosen : start ∈ places
    · obtain ⟨c, rfl⟩ := own.head chosen
      rw [blankedFrom_stray chosen, if_pos chosen]
      exact .cons (p := .blank ' ') (.blank rfl) others
    · rw [own.slice chosen, if_neg chosen]
      exact .cons (first.blanked places _) others

theorem newlines_blanked (tiling : Tiling cs ps) (own : OnlyStrays places start ps) :
    newlines (blankedFrom places start cs) = newlines cs := by
  induction tiling generalizing start with
  | nil => rfl
  | @cons ps p rest first _ ih =>
    rw [blankedFrom_append, newlines_append, newlines_append, ih own.tail]
    by_cases chosen : start ∈ places
    · obtain ⟨c, rfl⟩ := own.head chosen
      rw [newlines_stray first, blankedFrom_stray chosen]
      rfl
    · rw [own.slice chosen]

end Blanked

section Tokens

variable {places : List Nat} {start line : Nat} {ps : List Piece} {cs : List Char}

/-- The tokens of the program stay. -/
theorem spoken_withBlanks (tiling : Tiling cs ps) (own : OnlyStrays places start ps) :
    (tokensFrom line (withBlanks places start ps)).filter
        (fun t => t.kind != .blank && t.kind != .invalid) =
      (tokensFrom line ps).filter fun t => t.kind != .blank && t.kind != .invalid := by
  induction tiling generalizing start line with
  | nil => rfl
  | cons first _ ih =>
    rw [withBlanks]
    by_cases chosen : start ∈ places
    · obtain ⟨c, rfl⟩ := own.head chosen
      rw [if_pos chosen, tokensFrom, tokensFrom, List.filter_cons_of_neg (by simp [Piece.kind]),
        List.filter_cons_of_neg (by simp [Piece.kind]), newlines_stray first]
      exact ih own.tail
    · rw [if_neg chosen, tokensFrom, tokensFrom, List.filter_cons, List.filter_cons, ih own.tail]

/-- The strays that are not replaced are still reported. -/
theorem strays_withBlanks (tiling : Tiling cs ps) (own : OnlyStrays places start ps) :
    (tokensFrom line (withBlanks places start ps)).filter (·.kind = .invalid) =
      (((strayPlacesFrom start ps).zip ((tokensFrom line ps).filter (·.kind = .invalid))).filter
        (·.1 ∉ places)).map (·.2) := by
  induction tiling generalizing start line with
  | nil => rfl
  | @cons ps p rest first _ ih =>
    rw [withBlanks, strayPlacesFrom_cons]
    by_cases chosen : start ∈ places
    · obtain ⟨c, rfl⟩ := own.head chosen
      have stray : (Piece.stray c).isStray = true := rfl
      rw [if_pos chosen, tokensFrom, tokensFrom, List.filter_cons_of_neg (by simp [Piece.kind]),
        List.filter_cons_of_pos (by simp [Piece.kind]), newlines_stray first, if_pos stray,
        List.singleton_append, List.zip_cons_cons, List.filter_cons_of_neg (by simp [chosen])]
      exact ih own.tail
    · rw [if_neg chosen, tokensFrom, tokensFrom]
      by_cases stray : p.isStray = true
      · have invalid : p.kind = .invalid := by simpa [Piece.isStray_eq] using stray
        rw [List.filter_cons_of_pos (by simp [invalid]),
          List.filter_cons_of_pos (by simp [invalid]), if_pos stray, List.singleton_append,
          List.zip_cons_cons,
          List.filter_cons_of_pos (by simp [chosen]), List.map_cons, ih own.tail]
      · have valid : ¬ p.kind = .invalid := by simpa [Piece.isStray_eq] using stray
        rw [List.filter_cons_of_neg (by simp [valid]), List.filter_cons_of_neg (by simp [valid]),
          if_neg stray, List.nil_append, ih own.tail]

end Tokens

namespace Source

/-- The places of the stray characters of a text. -/
def strayPlaces (source : String) : List Nat := strayPlacesFrom 0 (pieces source.toList)

/-- A text with blanks in these places. -/
def blanked (places : List Nat) (source : String) : String :=
  String.ofList (blankedFrom places 0 source.toList)

/-- The strays of a text are what stands at their places. -/
theorem strays_at_places (source : String) :
    List.Forall₂ (fun place t => ∃ c, source.toList[place]? = some c ∧ t.kind = .invalid ∧
      t.lexeme = String.ofList [c]) (strayPlaces source) (strays source) := by
  have stand := stands_strays (tiling_pieces source.toList)
  have own : List.Forall₂
      (fun (x : Nat × Piece) t => x.2.isStray = true ∧ Stands source.toList x.1 x.2 t) _ _ :=
    (List.forall₂_and_left _ _).mpr ⟨fun _ mem => (List.mem_filter.mp mem).2, stand⟩
  rw [strayPlaces, strayPlacesFrom, List.forall₂_map_left_iff]
  refine own.imp ?_
  rintro ⟨place, p⟩ t ⟨stray, stands⟩
  obtain ⟨c, rfl⟩ := Piece.exists_of_isStray stray
  obtain ⟨made, ⟨rest, slice⟩, _, _⟩ := stands
  refine ⟨c, ?_, ?_⟩
  · rw [← List.head?_drop, ← slice]
    rfl
  · cases made
    exact ⟨rfl, rfl⟩

section Replaced

variable {source : String} {places : List Nat} (own : places ⊆ strayPlaces source)
include own

theorem onlyStrays_of_subset : OnlyStrays places 0 (pieces source.toList) :=
  fun _ mem _ => own mem

theorem pieces_blanked :
    pieces (blanked places source).toList = withBlanks places 0 (pieces source.toList) := by
  rw [blanked, String.toList_ofList]
  exact ((tiling_pieces source.toList).blanked (onlyStrays_of_subset own)).eq_pieces.symm

theorem stream_blanked : stream (blanked places source) = stream source := by
  have tiling := tiling_pieces source.toList
  have strays := onlyStrays_of_subset own
  have lines : newlines (blanked places source).toList = newlines source.toList := by
    rw [blanked, String.toList_ofList, newlines_blanked tiling strays]
  simp only [stream, tokens, pieces_blanked own, spoken_withBlanks tiling strays, lines]

theorem strays_blanked : strays (blanked places source) =
    (((strayPlaces source).zip (strays source)).filter (·.1 ∉ places)).map (·.2) := by
  rw [strays, tokens, pieces_blanked own]
  exact strays_withBlanks (tiling_pieces source.toList) (onlyStrays_of_subset own)

end Replaced

/-- A stray character parts the text in two, each of which is scanned as if it stood alone. -/
theorem pieces_around_stray {a b : String} {c : Char}
    (mem : a.toList.length ∈ strayPlaces (a ++ String.ofList [c] ++ b)) :
    pieces (a ++ String.ofList [c] ++ b).toList =
      pieces a.toList ++ .stray c :: pieces b.toList := by
  have text : (a ++ String.ofList [c] ++ b).toList = a.toList ++ c :: b.toList := by simp
  rw [strayPlaces] at mem
  rw [text] at mem ⊢
  obtain ⟨front, d, back, cut, place⟩ := exists_of_mem_strayPlacesFrom mem
  have tiling := tiling_pieces (a.toList ++ c :: b.toList)
  rw [cut] at tiling ⊢
  have whole := tiling.flatten
  rw [List.flatMap_append, List.flatMap_cons] at whole
  obtain ⟨left, rest⟩ := List.append_inj whole (by rw [place, Nat.zero_add])
  obtain ⟨rfl, right⟩ := List.cons.inj rest
  have right : back.flatMap Piece.slice = b.toList := right
  obtain ⟨first, last⟩ := tiling.around
  rw [left] at first
  rw [right] at last
  rw [first.eq_pieces, last.eq_pieces]

theorem body_around_stray {a b : String} {c : Char}
    (mem : a.toList.length ∈ strayPlaces (a ++ String.ofList [c] ++ b)) :
    (stream (a ++ String.ofList [c] ++ b)).body =
      (stream a).body ++ (stream b).body.map (Token.lowered (newlines a.toList)) := by
  have cut := pieces_around_stray mem
  have tiling := tiling_pieces (a ++ String.ofList [c] ++ b).toList
  rw [cut] at tiling
  obtain ⟨rest, fits⟩ := tiling.exists_fits (p := .stray c) (by simp)
  simp only [stream]
  rw [tokens_around cut, List.filter_append, List.filter_cons_of_neg (by simp [Piece.kind]),
    newlines_stray fits, List.filter_map]
  rfl

/-- Strays are blanks that are reported. If blanks take the places of some of the strays of a text
then its tokens are the same on the same lines, and the other strays are reported as before. The
tokens in front of a stray are those of the text in front of it, and the tokens behind it those of
the text behind it, on their lines. -/
theorem strays_as_blanks (source : String) (places : List Nat) (own : places ⊆ strayPlaces source) :
    List.Forall₂ (fun place t => ∃ c, source.toList[place]? = some c ∧ t.kind = .invalid ∧
      t.lexeme = String.ofList [c]) (strayPlaces source) (strays source) ∧
    stream (blanked places source) = stream source ∧
    strays (blanked places source) =
      (((strayPlaces source).zip (strays source)).filter (·.1 ∉ places)).map (·.2) ∧
    ∀ a c b, source = a ++ String.ofList [c] ++ b → a.toList.length ∈ strayPlaces source →
      (stream source).body =
        (stream a).body ++ (stream b).body.map (Token.lowered (newlines a.toList)) := by
  refine ⟨strays_at_places source, stream_blanked own, strays_blanked own, ?_⟩
  rintro a c b rfl mem
  exact body_around_stray mem

/-- Strays between the signs of an operator and behind a number, and characters that are none: in a
word, and in a string. -/
def speckled : String := "a²>#=1²@\"@\"#b"

theorem speckled_as_blanks : [3, 7] ⊆ strayPlaces speckled ∧
    blanked [3, 7] speckled = "a²> =1² \"@\"#b" ∧
    stream (blanked [3, 7] speckled) = stream speckled ∧
    strays (blanked [3, 7] speckled) = [⟨.invalid, "²", 1⟩, ⟨.invalid, "#", 1⟩] := by
  have places : strayPlaces speckled = [3, 6, 7, 11] := by decide +kernel
  have own : [3, 7] ⊆ strayPlaces speckled := by
    rw [places]
    decide
  obtain ⟨_, same, kept, _⟩ := strays_as_blanks speckled [3, 7] own
  refine ⟨own, by decide +kernel, same, ?_⟩
  rw [kept]
  decide +kernel

end Source

end Scriptlet
