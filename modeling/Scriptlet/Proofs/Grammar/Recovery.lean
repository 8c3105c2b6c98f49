import Scriptlet.Proofs.Grammar.Recognition
import Scriptlet.Proofs.Token.Stream

/-! Recovery is local. A malformed stretch of tokens that ends where a statement would is given up
somewhere in front of its semicolon, and reading goes on right behind that, as if nothing had stood
there. -/
namespace Scriptlet.Grammar

open Scriptlet.Program (boundary declaration many resync)

/-- A token that a declaration which is no block may hold in front of its semicolon. -/
def Stated (t : Token) : Prop :=
  Phrasal t ∨ t.kind = .keyword .var ∨ t.kind = .keyword .print

theorem Stated.not_semicolon {t : Token} (h : Stated t) : t.kind ≠ .symbol .semicolon := by
  intro semicolon
  rcases h with (literal | name | ⟨s, own, sign⟩) | keyword | keyword
  · rw [semicolon] at literal
    revert literal
    decide
  · cases semicolon.symm.trans name
  · cases semicolon.symm.trans sign
    exact own (by decide)
  · cases semicolon.symm.trans keyword
  · cases semicolon.symm.trans keyword

/-- A text at whose head no block stands. -/
def Unbraced (ts : List Token) : Prop := ∀ t ∈ ts.head?, t.kind ≠ .symbol .leftBrace

theorem unbraced_append (some : ts ≠ []) (us : List Token) : Unbraced (ts ++ us) ↔ Unbraced ts := by
  obtain ⟨t, ts, rfl⟩ := List.exists_cons_of_ne_nil some
  rfl

section Declaration

variable (plain : Unbraced ts)
include plain

/-- Nothing is recovered from inside of a declaration that is no block. -/
theorem declaration_inner (l : Nat) : (declaration (l + 1) ts).inner = [] := by
  cases ts with
  | nil => rfl
  | cons t ts =>
    simp only [declaration]
    split
    · rfl
    · rfl
    next opening => exact absurd opening (plain t rfl)
    · rfl

theorem declaration_obstructs (outcome : (declaration (l + 1) ts).outcome = .error o) :
    Obstructs Stated ts o := by
  have mono : ∀ {us}, Obstructs Phrasal us o → Obstructs Stated us o :=
    fun h => ⟨h.1.mono fun _ => .inl, h.2.mono fun _ => .inl⟩
  cases ts with
  | nil => exact mono (terminated_leaves outcome)
  | cons t ts =>
    simp only [declaration] at outcome
    split at outcome
    next opening => exact (mono (variableDeclaration_leaves outcome)).cons (.inr (.inl opening))
    next opening => exact (mono (terminated_leaves outcome)).cons (.inr (.inr opening))
    next opening => exact absurd opening (plain t rfl)
    · exact mono (terminated_leaves outcome)

/-- The only semicolon of a declaration that is no block is its last token. -/
theorem Declaration.closed (h : Declaration gap ts n) : ∃ front semicolon,
    ts = front ++ [semicolon] ∧ semicolon.kind = .symbol .semicolon ∧ ∀ t ∈ front, Stated t := by
  have phrase : ∀ {us v}, Derives .expression us v → ∀ t ∈ us, Stated t :=
    fun derived t mem => .inl (derived.phrasal t mem)
  cases h with
  | @bare word name semicolon opening named closing =>
    refine ⟨[word, name], semicolon, rfl, closing, ?_⟩
    exact List.forall_mem_cons.mpr ⟨.inr (.inl opening),
      List.forall_mem_singleton.mpr (.inl (.inr (.inl named)))⟩
  | @initialised us _ word name equals semicolon opening named sign value closing =>
    refine ⟨word :: name :: equals :: us, semicolon, rfl, closing, ?_⟩
    exact List.forall_mem_cons.mpr ⟨.inr (.inl opening),
      List.forall_mem_cons.mpr ⟨.inl (.inr (.inl named)),
        List.forall_mem_cons.mpr ⟨.inl (phrasal_of_symbol sign (by decide)), phrase value⟩⟩⟩
  | @print us _ word semicolon opening value closing =>
    exact ⟨word :: us, semicolon, rfl, closing,
      List.forall_mem_cons.mpr ⟨.inr (.inr opening), phrase value⟩⟩
  | block opening _ _ => exact absurd opening (plain _ rfl)
  | @expression us _ semicolon value closing => exact ⟨us, semicolon, rfl, closing, phrase value⟩

end Declaration

/-- What is left behind tokens none of which is a semicolon still has the first semicolon. -/
theorem Behind.first_semicolon (h : Behind Stated (front ++ semicolon :: rest) left)
    (closing : semicolon.kind = .symbol .semicolon) :
    ∃ mid, mid <:+ front ∧ left = mid ++ semicolon :: rest :=
  h.of_foreign fun stated => stated.not_semicolon closing

/-- Nothing in front of a semicolon keeps a search for a boundary from getting there. -/
theorem boundary_first_semicolon {passed semicolon : Token} {mid : List Token}
    (closing : semicolon.kind = .symbol .semicolon)
    (open_mid : ∀ t ∈ passed :: mid, t.kind ≠ .symbol .semicolon)
    (plain : ∀ t ∈ mid, t.kind.opensStatement = false) (rest : List Token) :
    boundary passed (mid ++ semicolon :: rest) = rest := by
  have ends : boundary semicolon rest = rest := by
    cases rest <;> simp [boundary, closing]
  induction mid generalizing passed with
  | nil =>
    have going : semicolon.kind.opensStatement = false := by rw [closing]; rfl
    simpa [boundary, open_mid passed (by simp), going] using ends
  | cons t mid ih =>
    obtain ⟨going, plain⟩ := List.forall_mem_cons.mp plain
    obtain ⟨head, open_mid⟩ := List.forall_mem_cons.mp open_mid
    simpa [boundary, head, going] using ih open_mid plain

/-- A stretch of tokens that ends as a statement would, and is none. It is no block, and none of its
tokens but the first one invites reading to resume there. -/
structure Malformed (ts : List Token) : Prop where
  underivable (n : Node) : ¬ Declaration (fun _ => False) ts n
  unbraced : Unbraced ts
  whole : ∀ t ∈ ts, t.kind ≠ .endOfInput
  closed : ∃ front semicolon, ts = front ++ [semicolon] ∧ semicolon.kind = .symbol .semicolon ∧
    ∀ t ∈ front, t.kind ≠ .symbol .semicolon
  plain : ∀ t ∈ ts.tail, t.kind.opensStatement = false

namespace Malformed

variable {ts rest : List Token}

theorem ne_nil (h : Malformed ts) : ts ≠ [] := by
  obtain ⟨front, semicolon, rfl, _⟩ := h.closed
  simp

/-- Whatever follows, no declaration is read at the head of the stretch. -/
theorem outcome_ne_ok (h : Malformed ts) (l : Nat) (n : Node) :
    (declaration (l + 1) (ts ++ rest)).outcome ≠ .ok (n, left) := by
  intro outcome
  have plain := (unbraced_append h.ne_nil rest).mpr h.unbraced
  have slack : Slack (fun _ => False) (declaration (l + 1) (ts ++ rest)).inner :=
    fun some => absurd (declaration_inner plain l) some
  obtain ⟨us, whole, derived⟩ := declaration_derives (declaration_faithful l) slack outcome
  rw [whole, unbraced_append derived.ne_nil] at plain
  obtain ⟨front', semicolon', rfl, closing', stated⟩ := derived.closed plain
  obtain ⟨front, semicolon, rfl, closing, open_front⟩ := h.closed
  simp only [List.append_assoc, List.singleton_append] at whole
  obtain ⟨mid, within, same⟩ := Behind.first_semicolon ⟨front', whole, stated⟩ closing
  -- The first semicolon of the declaration is that of the stretch, so the stretch would derive.
  cases mid with
  | nil =>
    cases same
    obtain rfl := List.append_cancel_right whole
    exact h.underivable n derived
  | cons t mid =>
    cases same
    exact open_front semicolon' (within.mem (by simp)) closing'

/-- The stretch is given up inside of it, and reading goes on right behind. -/
theorem settle (h : Malformed ts) (l : Nat) (rest : List Token) :
    ∃ o : Obstacle, (declaration (l + 1) (ts ++ rest)).settle = ⟨[], [o], rest⟩ ∧
      ∃ t ∈ ts, o.named.head? = some t := by
  have plain := (unbraced_append h.ne_nil rest).mpr h.unbraced
  cases outcome : (declaration (l + 1) (ts ++ rest)).outcome with
  | ok result => exact absurd outcome (h.outcome_ne_ok l result.1)
  | error o =>
    have behind := declaration_obstructs plain outcome
    rw [settle_error outcome, declaration_inner plain, List.nil_append]
    obtain ⟨front, semicolon, rfl, closing, open_front⟩ := h.closed
    simp only [List.append_assoc, List.singleton_append] at behind
    obtain ⟨mid, within, left⟩ := behind.2.first_semicolon closing
    obtain ⟨mid', within', named⟩ := behind.1.first_semicolon closing
    have resumed : resync o.rest = rest := by
      rw [left]
      cases mid with
      | nil => cases rest <;> simp [resync, boundary, closing]
      | cons t mid =>
        refine boundary_first_semicolon closing (fun t mem => open_front t (within.mem mem)) ?_ rest
        obtain ⟨skipped, rfl⟩ := within
        intro t mem
        refine h.plain t ?_
        cases skipped <;> simp [mem]
    refine ⟨o, by rw [resumed], ?_⟩
    rw [named]
    cases mid' with
    | nil => exact ⟨semicolon, by simp, rfl⟩
    | cons t mid' => exact ⟨t, List.mem_append_left _ (within'.mem (by simp)), rfl⟩

/-- The text behind the stretch is read as it is by itself. -/
theorem recovered_append (h : Malformed ts) (rest : List Token) :
    ∃ o : Obstacle, recovered (ts ++ rest) =
        ⟨(recovered rest).statements, o :: (recovered rest).obstacles, []⟩ ∧
      ∃ t ∈ ts, o.named.head? = some t := by
  have levels : blockLevels = (blockLevels - 1) + 1 := by decide
  obtain ⟨o, settled, named⟩ := h.settle (blockLevels - 1) rest
  rw [← levels] at settled
  refine ⟨o, ?_, named⟩
  obtain ⟨t, us, rfl⟩ := List.exists_cons_of_ne_nil h.ne_nil
  have others : many (declaration blockLevels) List.isEmpty (us ++ rest).length rest =
      recovered rest :=
    (declaration_faithful blockLevels).many_fuel rfl (by simp) (Nat.le_refl _)
  have read : (recovered rest).rest = [] := rest_recovered
  rw [List.cons_append] at settled ⊢
  rw [recovered, List.length_cons, many_next rfl]
  simp only [settled, others, read]
  rfl

end Malformed

theorem body_of_ofTokens? {front : List Token} {stop : Token} {s : TokenStream}
    (given : TokenStream.ofTokens? (front ++ [stop]) = some s)
    (whole : ∀ t ∈ front, t.kind ≠ .endOfInput) : s.body = front := by
  have ends : stop.kind = .endOfInput := by
    simpa using TokenStream.last_of_ofTokens? given
  obtain ⟨s', given', body⟩ := ofTokens?_of_ends ends
  obtain rfl := Option.some.inj (given.symm.trans given')
  rw [body, List.takeWhile_append_of_pos (by simpa using whole)]
  simp [ends]

/-- Behind declarations that are in order, a malformed stretch costs one error, which names a token
of the stretch. It has no other bearing on the statements and the errors of what follows. -/
theorem ofStream_malformed {front ts tokens : List Token} {stop : Token} {a b : TokenStream}
    (given : TokenStream.ofTokens? (front ++ [stop]) = some a)
    (whole : ∀ t ∈ front, t.kind ≠ .endOfInput) (clean : (Program.ofStream a).errors = [])
    (malformed : Malformed ts) (follows : TokenStream.ofTokens? tokens = some b) :
    ∃ s, TokenStream.ofTokens? (front ++ ts ++ tokens) = some s ∧
      (Program.ofStream s).statements =
        (Program.ofStream a).statements ++ (Program.ofStream b).statements ∧
      ∃ e, e.found ∈ ts ∧ (Program.ofStream s).errors = e :: (Program.ofStream b).errors := by
  have opened : ∀ t ∈ front ++ ts, t.kind ≠ .endOfInput :=
    List.forall_mem_append.mpr ⟨whole, malformed.whole⟩
  refine ⟨b.prepend (front ++ ts) opened, TokenStream.ofTokens?_append opened follows, ?_⟩
  obtain ⟨o, read, t, mem, named⟩ := malformed.recovered_append b.body
  have first := recovered_append_of_errors_nil clean (ts ++ b.body)
  rw [body_of_ofTokens? given whole, ← List.append_assoc, read] at first
  have found : (o.error b.stop).found = t := by
    rw [Obstacle.error, List.headD_eq_head?_getD, named]
    rfl
  refine ⟨congrArg (·.statements) first, o.error b.stop, found ▸ mem, ?_⟩
  exact congrArg (·.obstacles.map (·.error b.stop)) first

/-- The stretch `1 = 2;`, whose target is looked at when its value has been read. -/
def lateTarget : List Token :=
  [⟨.number, "1", 2⟩, ⟨.symbol .equal, "=", 2⟩, ⟨.number, "2", 2⟩, ⟨.symbol .semicolon, ";", 2⟩]

theorem lateTarget_malformed : Malformed lateTarget where
  underivable n derived := by
    obtain ⟨s, given, read⟩ := errors_nil_iff_derives lateTarget ⟨.endOfInput, "", 2⟩ rfl
    cases given
    have program : Program lateTarget [n] := .next derived .done
    have clean := ((read (by decide) [n]).mpr program).1
    revert clean
    decide
  unbraced := by
    intro t first
    cases first
    decide
  whole := by decide
  closed := ⟨lateTarget.dropLast, ⟨.symbol .semicolon, ";", 2⟩, rfl, rfl, by decide⟩
  plain := by decide

/-- The statement `print 3;` -/
def printing (line : Int) : List Token :=
  [⟨.keyword .print, "print", line⟩, ⟨.number, "3", line⟩, ⟨.symbol .semicolon, ";", line⟩]

theorem lateTarget_between : ∃ s,
    TokenStream.ofTokens? (printing 1 ++ lateTarget ++ (printing 3 ++ [⟨.endOfInput, "", 3⟩])) =
        some s ∧
      (Program.ofStream s).statements =
        [.print (.literal ⟨.number, "3", 1⟩), .print (.literal ⟨.number, "3", 3⟩)] ∧
      ∃ e, e.found ∈ lateTarget ∧ (Program.ofStream s).errors = [e] := by
  obtain ⟨a, given⟩ : ∃ a, TokenStream.ofTokens? (printing 1 ++ [⟨.endOfInput, "", 1⟩]) = some a :=
    ⟨_, rfl⟩
  obtain ⟨b, follows⟩ : ∃ b, TokenStream.ofTokens? (printing 3 ++ [⟨.endOfInput, "", 3⟩]) = some b :=
    ⟨_, rfl⟩
  have recovers := ofStream_malformed given (by decide) ?_ lateTarget_malformed follows
  · cases given
    cases follows
    exact recovers
  · cases given
    decide

end Scriptlet.Grammar
