import Scriptlet.Proofs.Grammar.Recovery

/-! Where reading resumes behind a declaration that failed. The token at which it failed is passed over
whatever it is; behind that token no word that opens a statement is passed over. So such a word is
lost if it is where the declaration failed, and the end of a block is passed over unless a boundary
comes before it. -/
namespace Scriptlet.Grammar

open Scriptlet.Program (blockDone boundary declaration many resync)

/-- The token at the head of a part of a text is passed over on the way to what is left of the text. -/
def Skipped (ts rest : List Token) (t : Token) (vs : List Token) : Prop :=
  t :: vs <:+ ts ∧ rest <:+ vs

theorem Behind.skipped (h : Behind sort ts rest) (skipped : Skipped ts rest t vs) : sort t := by
  obtain ⟨us, whole, all⟩ := h
  obtain ⟨⟨front, part⟩, ⟨mid, left⟩⟩ := skipped
  have same : front ++ t :: mid ++ rest = us ++ rest := by
    rw [← whole, ← part, ← left]
    simp only [List.append_assoc, List.cons_append]
  rw [← List.append_cancel_right same] at all
  exact all t (by simp)

/-- A search for a boundary passes over no word that opens a statement. -/
theorem boundary_behind (passed : Token) (ts : List Token) :
    Behind (fun t => t.kind.opensStatement = false) ts (boundary passed ts) := by
  induction ts generalizing passed with
  | nil => exact .refl []
  | cons t ts ih =>
    unfold boundary
    split
    · exact .refl _
    next going =>
      have plain : t.kind.opensStatement = false := Bool.eq_false_iff.mpr fun h => going (.inr h)
      exact (ih t).cons plain

theorem resync_suffix_self (rest : List Token) : resync rest <:+ rest := by
  cases rest with
  | nil => exact List.suffix_refl []
  | cons t rest => exact (boundary_suffix t rest).trans (List.suffix_cons t rest)

/-- The only word that opens a statement and is passed over is one at which reading stood. -/
theorem skipped_resync_iff (opening : t.kind.opensStatement = true) :
    Skipped rest (resync rest) t vs ↔ t :: vs = rest := by
  constructor
  · intro skipped
    cases rest with
    | nil => exact List.suffix_nil.mp skipped.1
    | cons t' rest =>
      rcases List.suffix_cons_iff.mp skipped.1 with same | inner
      · exact same
      · have plain := (boundary_behind t' rest).skipped ⟨inner, skipped.2⟩
        cases plain.symm.trans opening
  · rintro rfl
    exact ⟨List.suffix_refl _, boundary_suffix t vs⟩

/-- Behind a declaration that failed, the only word opening a statement that can be passed over is the
one at which it failed, and that one is. It is the declaration's own first token only if nothing of
the declaration was read. -/
theorem skips_no_other_opener {levels : Nat} {us : List Token} {o : Obstacle}
    (outcome : (declaration levels us).outcome = .error o) :
    o.rest <:+ us ∧ (declaration levels us).settle.rest <:+ o.rest ∧
      (∀ t vs, t.kind.opensStatement = true →
        (Skipped o.rest (declaration levels us).settle.rest t vs ↔ t :: vs = o.rest)) ∧
      ((∀ t vs, t.kind.opensStatement = true →
          Skipped o.rest (declaration levels us).settle.rest t vs → t :: vs = us) ↔
        ∀ t ∈ o.rest.head?, t.kind.opensStatement = true → o.rest = us) := by
  rw [settle_error outcome]
  refine ⟨(declaration_faithful levels).leaves outcome, resync_suffix_self o.rest,
    fun t vs opening => skipped_resync_iff opening, ?_⟩
  constructor
  · intro own t first opening
    obtain ⟨vs, stood⟩ := List.head?_eq_some_iff.mp first
    rw [stood]
    exact own t vs opening ((skipped_resync_iff opening).mpr stood.symm)
  · intro first t vs opening skipped
    have stood : t :: vs = o.rest := (skipped_resync_iff opening).mp skipped
    have head : o.rest.head? = some t := by rw [← stood, List.head?_cons]
    exact stood.trans (first t head opening)

/-- The tokens of `print 1 print 2;`, the second statement of which is in order. -/
def printTwice : List Token :=
  [⟨.keyword .print, "print", 1⟩, ⟨.number, "1", 1⟩, ⟨.keyword .print, "print", 1⟩,
    ⟨.number, "2", 1⟩, ⟨.symbol .semicolon, ";", 1⟩]

/-- However deep blocks may nest, reading stands at the second word of the two when the first statement
fails. -/
theorem printTwice_outcome (l : Nat) : (declaration (l + 3) printTwice).outcome =
    .error (.here .endOfPrint (printTwice.drop 2)) := rfl

theorem printTwice_skips :
    (declaration blockLevels printTwice).outcome =
        .error (.here .endOfPrint (printTwice.drop 2)) ∧
      Skipped (printTwice.drop 2) (declaration blockLevels printTwice).settle.rest
        ⟨.keyword .print, "print", 1⟩ (printTwice.drop 3) := by
  have outcome : (declaration blockLevels printTwice).outcome = _ := printTwice_outcome 330
  obtain ⟨_, _, only, _⟩ := skips_no_other_opener outcome
  exact ⟨outcome, (only _ _ rfl).mpr rfl⟩

/-- So the second statement is lost. -/
theorem printTwice_loses : (∃ s,
      TokenStream.ofTokens? (printTwice ++ [⟨.endOfInput, "", 1⟩]) = some s ∧
        (Program.ofStream s).statements = [] ∧
        (Program.ofStream s).errors = [⟨.endOfPrint, ⟨.keyword .print, "print", 1⟩⟩]) ∧
    ¬ ∀ levels us o t vs, (declaration levels us).outcome = .error o →
      t.kind.opensStatement = true →
      Skipped o.rest (declaration levels us).settle.rest t vs → t :: vs = us := by
  constructor
  · refine ⟨_, rfl, rfl, ?_⟩
    decide
  · intro claimed
    have outcome : (declaration blockLevels printTwice).outcome = _ := printTwice_outcome 330
    have skipped : Skipped (printTwice.drop 2) (declaration blockLevels printTwice).settle.rest
        ⟨.keyword .print, "print", 1⟩ (printTwice.drop 3) := by
      rw [settle_error outcome]
      exact ⟨List.suffix_refl _, boundary_suffix _ _⟩
    have same := claimed blockLevels printTwice _ _ _ outcome rfl skipped
    revert same
    decide

/-- How many braces are open behind a token. -/
def openBehind (k : Nat) (t : Token) : Option Nat :=
  match t.kind, k with
  | .symbol .leftBrace, k => some (k + 1)
  | .symbol .rightBrace, 0 => none
  | .symbol .rightBrace, k + 1 => some k
  | _, k => some k

/-- How many braces are open behind some tokens, if none is closed that was not opened. -/
def openBraces (k : Nat) (ts : List Token) : Option Nat := ts.foldlM openBehind k

def Balanced (ts : List Token) : Prop := openBraces 0 ts = some 0

def IsBrace (t : Token) : Prop := t.kind = .symbol .leftBrace ∨ t.kind = .symbol .rightBrace

instance (t : Token) : Decidable (IsBrace t) := inferInstanceAs (Decidable (_ ∨ _))

section Braces

variable {t : Token}

theorem openBraces_cons (step : openBehind k t = some j) (ts : List Token) :
    openBraces k (t :: ts) = openBraces j ts := by
  rw [openBraces, List.foldlM_cons, step]
  rfl

theorem openBraces_append (k : Nat) (ts us : List Token) :
    openBraces k (ts ++ us) = (openBraces k ts).bind (openBraces · us) := List.foldlM_append

theorem openBehind_left (opening : t.kind = .symbol .leftBrace) (k : Nat) :
    openBehind k t = some (k + 1) := by
  simp only [openBehind, opening]

theorem openBehind_right (closing : t.kind = .symbol .rightBrace) (k : Nat) :
    openBehind (k + 1) t = some k := by
  simp only [openBehind, closing]

theorem openBehind_plain (plain : ¬ IsBrace t) (k : Nat) : openBehind k t = some k := by
  unfold openBehind
  split
  next opening => exact absurd (.inl opening) plain
  next closing => exact absurd (.inr closing) plain
  next closing => exact absurd (.inr closing) plain
  · rfl

end Braces

/-- The brace that closes the block in which a text begins, with what lies before and behind it. -/
structure ClosedBy (us body : List Token) (close : Token) (rest : List Token) : Prop where
  whole : us = body ++ close :: rest
  balanced : Balanced body
  closing : close.kind = .symbol .rightBrace

/-- If all braces are closed in the end, then so are the first `j + 1` of those that are open. -/
theorem exists_closing (closed : openBraces (j + 1 + k) us = some 0) :
    ∃ body close rest, us = body ++ close :: rest ∧ openBraces j body = some 0 ∧
      close.kind = .symbol .rightBrace := by
  -- Of the braces that are open, the last `j` were opened in the text that was gone through.
  induction us generalizing j with
  | nil =>
    have ended : j + 1 + k = 0 := Option.some.inj closed
    omega
  | cons t us ih =>
    by_cases opening : t.kind = .symbol .leftBrace
    · rw [openBraces_cons (openBehind_left opening _), Nat.add_right_comm (j + 1)] at closed
      obtain ⟨body, close, rest, rfl, balanced, closing⟩ := ih closed
      have step := openBraces_cons (openBehind_left opening j) body
      exact ⟨t :: body, close, rest, rfl, step.trans balanced, closing⟩
    by_cases closing : t.kind = .symbol .rightBrace
    · rw [Nat.add_right_comm, openBraces_cons (openBehind_right closing _)] at closed
      cases j with
      | zero => exact ⟨[], t, us, rfl, rfl, closing⟩
      | succ j =>
        obtain ⟨body, close, rest, rfl, balanced, last⟩ := ih closed
        have step := openBraces_cons (openBehind_right closing j) body
        exact ⟨t :: body, close, rest, rfl, step.trans balanced, last⟩
    · have plain : ¬ IsBrace t := not_or.mpr ⟨opening, closing⟩
      rw [openBraces_cons (openBehind_plain plain _)] at closed
      obtain ⟨body, close, rest, rfl, balanced, last⟩ := ih closed
      have step := openBraces_cons (openBehind_plain plain j) body
      exact ⟨t :: body, close, rest, rfl, step.trans balanced, last⟩

theorem Balanced.exists_closedBy (balanced : Balanced (front ++ us))
    (inside : openBraces 0 front = some (k + 1)) : ∃ body close rest, ClosedBy us body close rest := by
  rw [Balanced, openBraces_append, inside] at balanced
  have closed : openBraces (0 + 1 + k) us = some 0 := by
    rw [Nat.zero_add, Nat.add_comm]
    exact balanced
  obtain ⟨body, close, rest, whole, inner, closing⟩ := exists_closing closed
  exact ⟨body, close, rest, whole, inner, closing⟩

theorem not_suffix_boundary (t : Token) (ts : List Token) : ¬ t :: ts <:+ boundary t ts := by
  intro within
  have shorter := (within.trans (boundary_suffix t ts)).length_le
  simp only [List.length_cons] at shorter
  omega

section Boundary

variable {close : Token} (closing : close.kind = .symbol .rightBrace)
include closing

/-- A search for a boundary is over before a closing brace only if there is a boundary. -/
theorem suffix_boundary_iff (passed : Token) (mid rest : List Token) :
    close :: rest <:+ boundary passed (mid ++ close :: rest) ↔
      (∃ t ∈ passed :: mid, t.kind = .symbol .semicolon) ∨
        ∃ t ∈ mid, t.kind.opensStatement = true := by
  induction mid generalizing passed with
  | nil =>
    have plain : close.kind.opensStatement = false := by
      rw [closing]
      rfl
    by_cases last : passed.kind = .symbol .semicolon
    · simp [boundary, last]
    · simpa [boundary, last, plain] using not_suffix_boundary close rest
  | cons t mid ih =>
    rw [List.cons_append, boundary]
    by_cases stops : passed.kind = .symbol .semicolon ∨ t.kind.opensStatement = true
    · rw [if_pos stops]
      refine iff_of_true (List.suffix_append (t :: mid) (close :: rest)) ?_
      rcases stops with last | opening
      · exact .inl ⟨passed, List.mem_cons_self, last⟩
      · exact .inr ⟨t, List.mem_cons_self, opening⟩
    · obtain ⟨last, plain⟩ := not_or.mp stops
      rw [if_neg stops, ih]
      simp only [List.mem_cons, exists_eq_or_imp, last, plain, Bool.false_eq_true, false_or]

/-- The same from the token at which reading stood. As that is passed over in any case, it does not
matter whether it opens a statement. -/
theorem suffix_resync_iff (mid rest : List Token) :
    close :: rest <:+ resync (mid ++ close :: rest) ↔
      (∃ t ∈ mid, t.kind = .symbol .semicolon) ∨
        ∃ t ∈ mid.tail, t.kind.opensStatement = true := by
  cases mid with
  | nil => simpa [resync] using not_suffix_boundary close rest
  | cons t mid => exact suffix_boundary_iff closing t mid rest

end Boundary

section Block

variable {levels : Nat} {us vs rest : List Token} {o : Obstacle} {close : Token}
  (going : blockDone us = false) (outcome : (declaration levels us).outcome = .error o)
  (left : resync o.rest = vs ++ close :: rest) (after : Program vs ns)
  (closing : close.kind = .symbol .rightBrace)
include going outcome left after closing

/-- If what reading comes back to is in order up to a closing brace, it is read up to there. -/
theorem many_resumed (enough : us.length ≤ fuel) :
    many (declaration levels) blockDone fuel us =
        ⟨ns, (declaration levels us).inner ++ [o], close :: rest⟩ ∨
      Deep (many (declaration levels) blockDone fuel us).obstacles := by
  obtain ⟨t, us, rfl⟩ : ∃ t us', us = t :: us' := by
    cases us with
    | nil => cases going
    | cons t us => exact ⟨t, us, rfl⟩
  obtain ⟨fuel, rfl⟩ : ∃ f, fuel = f + 1 := ⟨fuel - 1, by simp only [List.length_cons] at enough; omega⟩
  have shorter : (vs ++ close :: rest).length ≤ fuel := by
    have := (resync_suffix ((declaration_faithful levels).leaves outcome)).length_le
    rw [left] at this
    simp only [List.length_cons] at enough
    omega
  have ended : blockDone (close :: rest) = true := by simp [blockDone, closing]
  obtain ⟨k, declares⟩ := Declarations.declares after
  have step : many (declaration levels) blockDone (fuel + 1) (t :: us) =
      let others := many (declaration levels) blockDone fuel (vs ++ close :: rest)
      ⟨others.statements, (declaration levels (t :: us)).inner ++ [o] ++ others.obstacles,
        others.rest⟩ := by
    rw [many_next going, settle_error outcome, left]
    rfl
  rw [step]
  by_cases le : k ≤ levels
  · rw [declares.enough le passes_blockDone shorter, many_done ended]
    simp only [List.append_nil, true_or]
  · exact .inr (Deep.right (declares.short (Nat.lt_of_not_le le) passes_blockDone shorter) _)

/-- The block of the declaration is then read to that brace. -/
theorem declaration_resumed {brace : Token} (opening : brace.kind = .symbol .leftBrace)
    (before : Program ts ms) : declaration (levels + 1) (brace :: (ts ++ us)) =
        ⟨(declaration levels us).inner ++ [o], .ok (.block (ms ++ ns), rest)⟩ ∨
      Deep (declaration (levels + 1) (brace :: (ts ++ us))).inner := by
  obtain ⟨k, declares⟩ := Declarations.declares before
  rw [declaration_block opening]
  by_cases le : k ≤ levels
  · rw [declares.enough le passes_blockDone (Nat.le_refl _)]
    rcases many_resumed going outcome left after closing (Nat.le_refl us.length) with read | deep
    · rw [read]
      simp [Program.require, closing, bind, Except.bind, pure, Except.pure]
    · exact .inr deep
  · exact .inr (declares.short (Nat.lt_of_not_le le) passes_blockDone (Nat.le_refl _))

end Block

/-- A block whose closing brace does not come first is not over yet. -/
theorem ClosedBy.going (closed : ClosedBy us body close rest) (later : body ≠ []) :
    blockDone us = false := by
  obtain ⟨t, body, rfl⟩ := List.exists_cons_of_ne_nil later
  obtain ⟨rfl, balanced, _⟩ := closed
  by_cases closing : t.kind = .symbol .rightBrace
  · have unopened : openBraces 0 (t :: body) = none := by
      simp only [openBraces, List.foldlM_cons, openBehind, closing]
      rfl
    cases balanced.symm.trans unopened
  · simp only [List.cons_append, blockDone, closing, decide_false]

/-- A declaration that fails inside a block, having read no brace, leaves the brace that closes the
block to be read exactly if there is a boundary between the token at which it failed and that brace.
If reading then comes back to declarations that are in order, the block ends at its brace. -/
theorem resumes_before_closing {front us : List Token} {k levels : Nat} {o : Obstacle}
    (balanced : Balanced (front ++ us)) (inside : openBraces 0 front = some (k + 1))
    (outcome : (declaration levels us).outcome = .error o)
    (plain : Behind (fun t => ¬ IsBrace t) us o.rest) :
    ∃ body close rest mid, ClosedBy us body close rest ∧ o.rest = mid ++ close :: rest ∧
      (close :: rest <:+ (declaration levels us).settle.rest ↔
        (∃ t ∈ mid, t.kind = .symbol .semicolon) ∨
          ∃ t ∈ mid.tail, t.kind.opensStatement = true) ∧
      ∀ brace ts ms vs ns, brace.kind = .symbol .leftBrace → Program ts ms →
        (declaration levels us).settle.rest = vs ++ close :: rest → Program vs ns →
        declaration (levels + 1) (brace :: (ts ++ us)) =
            ⟨(declaration levels us).inner ++ [o], .ok (.block (ms ++ ns), rest)⟩ ∨
          Deep (declaration (levels + 1) (brace :: (ts ++ us))).inner := by
  obtain ⟨body, close, rest, closed⟩ := balanced.exists_closedBy inside
  have brace : ¬ ¬ IsBrace close := not_not_intro (.inr closed.closing)
  have unread := plain
  rw [closed.whole] at unread
  obtain ⟨mid, within, stood⟩ := unread.of_foreign brace
  have resumed := suffix_resync_iff closed.closing mid rest
  rw [settle_error outcome]
  refine ⟨body, close, rest, mid, closed, stood, stood ▸ resumed, ?_⟩
  intro brace ts ms vs ns opening before left after
  -- At the brace itself nothing could have been left of it.
  have later : body ≠ [] := by
    rintro rfl
    obtain rfl := List.suffix_nil.mp within
    refine not_suffix_boundary close rest ⟨vs, ?_⟩
    rw [← left, stood]
    rfl
  exact declaration_resumed (closed.going later) outcome left after closed.closing opening before

/-- The tokens of `{ print ; } print 1;` -/
def halfPrint : List Token :=
  [⟨.symbol .leftBrace, "\x7b", 1⟩, ⟨.keyword .print, "print", 1⟩, ⟨.symbol .semicolon, ";", 1⟩,
    ⟨.symbol .rightBrace, "\x7d", 1⟩, ⟨.keyword .print, "print", 1⟩, ⟨.number, "1", 1⟩,
    ⟨.symbol .semicolon, ";", 1⟩]

theorem halfPrint_outcome (l : Nat) : (declaration (l + 3) (halfPrint.drop 1)).outcome =
    .error (.here .expression (halfPrint.drop 2)) := rfl

theorem halfPrint_resumes : ∃ body close rest, ClosedBy (halfPrint.drop 1) body close rest ∧
    close :: rest <:+ (declaration (blockLevels - 1) (halfPrint.drop 1)).settle.rest := by
  have balanced : Balanced (halfPrint.take 1 ++ halfPrint.drop 1) := rfl
  have outcome : (declaration (blockLevels - 1) (halfPrint.drop 1)).outcome = _ :=
    halfPrint_outcome 329
  have plain : Behind (fun t => ¬ IsBrace t) (halfPrint.drop 1) (halfPrint.drop 2) :=
    .cons (by decide) (.refl _)
  obtain ⟨body, close, rest, mid, closed, stood, resumed, _⟩ :=
    resumes_before_closing balanced rfl outcome plain
  refine ⟨body, close, rest, closed, resumed.mpr (.inl ?_)⟩
  cases mid with
  | nil =>
    cases stood
    cases closed.closing
  | cons t mid =>
    obtain ⟨rfl, _⟩ := List.cons.inj stood
    exact ⟨_, List.mem_cons_self, rfl⟩

/-- The tokens of `{ print } print 1;` -/
def barePrint : List Token :=
  [⟨.symbol .leftBrace, "\x7b", 1⟩, ⟨.keyword .print, "print", 1⟩, ⟨.symbol .rightBrace, "\x7d", 1⟩,
    ⟨.keyword .print, "print", 1⟩, ⟨.number, "1", 1⟩, ⟨.symbol .semicolon, ";", 1⟩]

theorem barePrint_outcome (l : Nat) : (declaration (l + 3) (barePrint.drop 1)).outcome =
    .error (.here .expression (barePrint.drop 2)) := rfl

/-- Here the brace is where the declaration failed, so the block takes in the statement behind it and
is itself lost. -/
theorem barePrint_overruns : (∃ s,
      TokenStream.ofTokens? (barePrint ++ [⟨.endOfInput, "", 1⟩]) = some s ∧
        (Program.ofStream s).statements = [] ∧
        (Program.ofStream s).errors = [⟨.expression, ⟨.symbol .rightBrace, "\x7d", 1⟩⟩,
          ⟨.endOfBlock, ⟨.endOfInput, "", 1⟩⟩]) ∧
    ¬ ∀ front us k levels o body close rest, Balanced (front ++ us) →
      openBraces 0 front = some (k + 1) → (declaration levels us).outcome = .error o →
      Behind (fun t => ¬ IsBrace t) us o.rest → ClosedBy us body close rest →
      close :: rest <:+ (declaration levels us).settle.rest := by
  constructor
  · refine ⟨_, rfl, rfl, ?_⟩
    decide
  · intro claimed
    have outcome : (declaration (blockLevels - 1) (barePrint.drop 1)).outcome = _ :=
      barePrint_outcome 329
    have plain : Behind (fun t => ¬ IsBrace t) (barePrint.drop 1) (barePrint.drop 2) :=
      .cons (by decide) (.refl _)
    have closed : ClosedBy (barePrint.drop 1) [⟨.keyword .print, "print", 1⟩]
        ⟨.symbol .rightBrace, "\x7d", 1⟩ (barePrint.drop 3) := ⟨rfl, rfl, rfl⟩
    have within := claimed (barePrint.take 1) (barePrint.drop 1) 0 _ _ _ _ _ rfl rfl outcome plain closed
    rw [settle_error outcome] at within
    exact not_suffix_boundary _ _ within

end Scriptlet.Grammar
