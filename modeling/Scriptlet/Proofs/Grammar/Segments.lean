import Scriptlet.Proofs.Grammar.Recovery

/-! Whatever stands in a text, what is read off it is accounted for token by token. The text falls into
segments, one for each attempt at a declaration. A segment yields a statement that derives from it,
apart from stretches that were skipped inside of its blocks, or it is skipped itself. Each error
belongs to a skipped stretch and each of these has one, so that nothing is lost without a word. -/
namespace Scriptlet

/-- The tokens that a tree holds, in the order in which a text has them. -/
def Node.tokens : Node → List Token
  | missing => []
  | token t | literal t | reference t => [t]
  | binary left operator right => left.tokens ++ operator :: right.tokens
  | unary operator operand => operator :: operand.tokens
  | grouping n | print n | expression n => n.tokens
  | assign name n | declare name n => name :: n.tokens
  | block statements => tokensAll statements
where
  tokensAll : List Node → List Token
    | [] => []
    | n :: ns => n.tokens ++ tokensAll ns

namespace Grammar

open Scriptlet.Program (Attempt blockDone declaration many)

theorem Derives.tokens (h : Derives c ts n) : List.Sublist n.tokens ts := by
  induction h with
  | equality _ ih | operand _ ih | primary _ ih => exact ih
  | literal _ | reference _ => exact .refl _
  | assign _ _ _ ih => exact .cons_cons _ (.cons _ ih)
  | operation _ _ _ _ left right => exact left.append (.cons_cons _ right)
  | negation _ _ _ ih => exact .cons_cons _ ih
  | grouping _ _ _ ih => exact .cons _ (ih.trans (List.sublist_append_left _ _))

mutual

theorem Declaration.tokens : ∀ {ts n}, Declaration gap ts n → List.Sublist n.tokens ts
  | _, _, .bare _ _ _ => .cons _ (.cons_cons _ (List.nil_sublist _))
  | _, _, .initialised _ _ _ value _ =>
    .cons _ (.cons_cons _ (.cons _ (value.tokens.trans (List.sublist_append_left _ _))))
  | _, _, .print _ value _ => .cons _ (value.tokens.trans (List.sublist_append_left _ _))
  | _, _, .block _ body _ => .cons _ (body.tokens.trans (List.sublist_append_left _ _))
  | _, _, .expression value _ => value.tokens.trans (List.sublist_append_left _ _)

/-- The trees of a text hold tokens of it, each at most once and in order. -/
theorem Declarations.tokens : ∀ {ts ns}, Declarations gap ts ns →
    List.Sublist (Node.tokens.tokensAll ns) ts
  | _, _, .done => .slnil
  | _, _, .next first others => first.tokens.append others.tokens
  | _, _, .skip _ others => others.tokens.trans (List.sublist_append_right _ _)

end

mutual

theorem Declaration.mono (le : ∀ ts, gap ts → other ts) : ∀ {ts n}, Declaration gap ts n →
    Declaration other ts n
  | _, _, .bare opening named closing => .bare opening named closing
  | _, _, .initialised opening named sign value closing =>
    .initialised opening named sign value closing
  | _, _, .print opening value closing => .print opening value closing
  | _, _, .block opening body closing => .block opening (body.mono le) closing
  | _, _, .expression value closing => .expression value closing

theorem Declarations.mono (le : ∀ ts, gap ts → other ts) : ∀ {ts ns}, Declarations gap ts ns →
    Declarations other ts ns
  | _, _, .done => .done
  | _, _, .next first others => .next (first.mono le) (others.mono le)
  | _, _, .skip left others => .skip (le _ left) (others.mono le)

end

/-- A stretch of tokens that was left out, with what stood in the way of reading it. -/
structure Skip where
  tokens : List Token
  obstacles : List Obstacle
  tokens_ne_nil : tokens ≠ []
  obstacles_ne_nil : obstacles ≠ []

/-- Nothing was in the way exactly if nothing was left out. -/
theorem Skip.flatMap_obstacles_eq_nil {skips : List Skip} :
    skips.flatMap (·.obstacles) = [] ↔ skips = [] := by
  constructor
  · intro none
    rw [List.flatMap_eq_nil_iff] at none
    exact List.eq_nil_iff_forall_not_mem.mpr fun skip mem => skip.obstacles_ne_nil (none skip mem)
  · rintro rfl
    rfl

/-- What an attempt at a declaration came to: a statement with what was skipped inside of its blocks,
or nothing. -/
inductive Segment where
  | read (tokens : List Token) (statement : Node) (skips : List Skip)
  | skipped (skip : Skip)

namespace Segment

def tokens : Segment → List Token
  | read ts _ _ => ts
  | skipped skip => skip.tokens

def statements : Segment → List Node
  | read _ n _ => [n]
  | skipped _ => []

def skips : Segment → List Skip
  | read _ _ skips => skips
  | skipped skip => [skip]

def obstacles (seg : Segment) : List Obstacle := seg.skips.flatMap (·.obstacles)

/-- A statement derives from the tokens of its segment, but a block may hold segments of any sort. -/
inductive Genuine : Segment → Prop where
  | derived (h : Declaration (fun _ => False) ts n) : Genuine (read ts n [])
  | block {brace close : Token} {body : List Segment} (opening : brace.kind = .symbol .leftBrace)
      (inner : ∀ seg ∈ body, Genuine seg) (closing : close.kind = .symbol .rightBrace) :
      Genuine (read (brace :: (body.flatMap tokens ++ [close])) (.block (body.flatMap statements))
        (body.flatMap skips))
  | skipped (skip : Skip) : Genuine (skipped skip)

/-- Every statement of the segment derives from its tokens, apart from what was skipped. -/
def Derived (seg : Segment) : Prop :=
  ∀ n ∈ seg.statements, Declaration (fun us => us ≠ []) seg.tokens n

theorem declarations {segs : List Segment} (derived : ∀ seg ∈ segs, seg.Derived) :
    Declarations (fun us => us ≠ []) (segs.flatMap tokens) (segs.flatMap statements) := by
  induction segs with
  | nil => exact .done
  | cons seg segs ih =>
    obtain ⟨first, others⟩ := List.forall_mem_cons.mp derived
    cases seg with
    | read ts n skips => exact .next (first n (List.mem_singleton.mpr rfl)) (ih others)
    | skipped skip => exact .skip skip.tokens_ne_nil (ih others)

theorem Genuine.derives {seg : Segment} (h : seg.Genuine) : seg.Derived := by
  induction h with
  | derived whole =>
    intro n mem
    cases List.mem_singleton.mp mem
    exact whole.mono nofun
  | block opening _ closing ih =>
    intro n mem
    cases List.mem_singleton.mp mem
    exact .block opening (declarations ih) closing
  | skipped skip => nofun

theorem flatMap_obstacles (segs : List Segment) :
    segs.flatMap obstacles = (segs.flatMap skips).flatMap (·.obstacles) := List.flatMap_assoc.symm

end Segment

/-- Each segment is what one attempt at a declaration came to, and the next attempt is made right
behind it. -/
inductive Attempted (read : List Token → Attempt) :
    List Token → List Segment → List Token → Prop where
  | done : Attempted read ts [] ts
  | next {seg : Segment}
      (settled : (read (seg.tokens ++ us)).settle = ⟨seg.statements, seg.obstacles, us⟩)
      (others : Attempted read us segs rest) :
      Attempted read (seg.tokens ++ us) (seg :: segs) rest

theorem Attempted.tokens {read : List Token → Attempt} (h : Attempted read ts segs rest) :
    ts = segs.flatMap Segment.tokens ++ rest := by
  induction h with
  | done => rfl
  | next settled others ih => rw [List.flatMap_cons, List.append_assoc, ← ih]

/-- An attempt at the head of a text makes a segment. -/
def Splits (read : List Token → Attempt) (ts : List Token) : Prop :=
  ∃ (seg : Segment) (us : List Token), ts = seg.tokens ++ us ∧ seg.tokens ≠ [] ∧ seg.Genuine ∧
    (read ts).settle = ⟨seg.statements, seg.obstacles, us⟩

/-- A sequence of attempts makes a sequence of segments, which answer for all that is read. -/
theorem many_segments {read : List Token → Attempt} (splits : ∀ t ts, Splits read (t :: ts))
    {done : List Token → Bool} (stops : done [] = true) (enough : ts.length ≤ fuel) :
    ∃ segs rest, Attempted read ts segs rest ∧ (∀ seg ∈ segs, seg.tokens ≠ [] ∧ seg.Genuine) ∧
      many read done fuel ts =
        ⟨segs.flatMap Segment.statements, segs.flatMap Segment.obstacles, rest⟩ := by
  induction fuel generalizing ts with
  | zero =>
    obtain rfl := List.length_eq_zero_iff.mp (Nat.le_zero.mp enough)
    exact ⟨[], [], .done, nofun, rfl⟩
  | succ fuel ih =>
    cases going : done ts with
    | true => exact ⟨[], ts, .done, nofun, many_done going⟩
    | false =>
      cases ts with
      | nil => cases stops.symm.trans going
      | cons t ts =>
        obtain ⟨seg, us, whole, some, genuine, settled⟩ := splits t ts
        have shorter : us.length ≤ fuel := by
          have lengths := congrArg List.length whole
          have taken := List.length_pos_iff.mpr some
          simp only [List.length_append, List.length_cons] at lengths enough
          omega
        obtain ⟨segs, rest, attempted, all, read⟩ := ih shorter
        rw [many_next going, settled]
        simp only [read]
        refine ⟨seg :: segs, rest, ?_, List.forall_mem_cons.mpr ⟨⟨some, genuine⟩, all⟩, rfl⟩
        rw [whole] at settled ⊢
        exact .next settled attempted

/-- A failed attempt leaves its tokens out, up to where reading resumes. -/
theorem splits_of_error {read : List Token → Attempt} (faithful : Faithful read)
    (outcome : (read (t :: ts)).outcome = .error o) : Splits read (t :: ts) := by
  obtain ⟨skipped, left⟩ := faithful.settle_suffix t ts
  have settled := settle_error outcome
  rw [settled] at left
  refine ⟨.skipped ⟨t :: skipped, (read (t :: ts)).inner ++ [o], by simp, by simp⟩, _,
    congrArg (t :: ·) left.symm, by simp [Segment.tokens], .skipped _, ?_⟩
  simp [settled, Segment.statements, Segment.obstacles, Segment.skips]

theorem declaration_splits (levels : Nat) (t : Token) (ts : List Token) :
    Splits (declaration levels) (t :: ts) := by
  induction levels generalizing t ts with
  | zero => exact splits_of_error (declaration_faithful 0) rfl
  | succ l ih =>
    cases outcome : (declaration (l + 1) (t :: ts)).outcome with
    | error o => exact splits_of_error (declaration_faithful (l + 1)) outcome
    | ok result =>
      obtain ⟨n, rest⟩ := result
      have settled := settle_ok outcome
      by_cases opening : t.kind = .symbol .leftBrace
      · -- The segments of the body become those of the block, between its braces.
        obtain ⟨body, left, attempted, all, read⟩ :=
          many_segments ih (rfl : blockDone [] = true) (Nat.le_refl ts.length)
        rw [declaration_block opening, read] at outcome settled
        obtain ⟨_, required, made⟩ := Outcome.bind_eq_ok.mp outcome
        obtain ⟨close, rfl, closing⟩ := require_eq_ok.mp required
        cases made
        refine ⟨_, rest, ?_, ?_, .block opening (fun seg mem => (all seg mem).2) closing, ?_⟩
        · simp [Segment.tokens, attempted.tokens]
        · simp [Segment.tokens]
        · rw [declaration_block opening, read, settled, Segment.flatMap_obstacles]
          rfl
      · have plain : Unbraced (t :: ts) := by
          intro t' same
          cases same
          exact opening
        have inner := declaration_inner plain l
        have slack : Slack (fun _ => False) (declaration (l + 1) (t :: ts)).inner :=
          fun some => absurd inner some
        obtain ⟨us, whole, derived⟩ := declaration_derives (declaration_faithful l) slack outcome
        rw [inner] at settled
        exact ⟨.read us n [], rest, whole, derived.ne_nil, .derived derived, settled⟩

/-- What is read off a stream, told by the attempts at the declarations in its body. -/
structure Segmented (s : TokenStream) (segs : List Segment) : Prop where
  attempted : Attempted (declaration blockLevels) s.body segs []
  tiled : segs.flatMap Segment.tokens = s.body
  nonempty : ∀ seg ∈ segs, seg.tokens ≠ []
  genuine : ∀ seg ∈ segs, seg.Genuine
  answered : ∀ seg ∈ segs,
    (∃ n, seg.statements = [n] ∧ Declaration (fun us => us ≠ []) seg.tokens n) ∨
      seg.statements = [] ∧ seg.obstacles ≠ []
  statements : (Program.ofStream s).statements = segs.flatMap Segment.statements
  errors : (Program.ofStream s).errors = (segs.flatMap Segment.obstacles).map (·.error s.stop)
  held : List.Sublist ((Program.ofStream s).statements.flatMap Node.tokens) s.body
  clean : (Program.ofStream s).errors = [] ↔ segs.flatMap Segment.skips = []

theorem tokensAll_eq_flatMap (ns : List Node) : Node.tokens.tokensAll ns = ns.flatMap Node.tokens := by
  induction ns with
  | nil => rfl
  | cons n ns ih => rw [List.flatMap_cons, ← ih, Node.tokens.tokensAll]

/-- The attempts at the declarations of a stream make segments of all of its body. -/
theorem exists_segmented (s : TokenStream) : ∃ segs, Segmented s segs := by
  obtain ⟨segs, rest, attempted, all, read⟩ :=
    many_segments (declaration_splits blockLevels) passes_isEmpty.stops (Nat.le_refl s.body.length)
  have ended : (recovered s.body).rest = [] := rest_recovered
  have whole : recovered s.body =
      ⟨segs.flatMap Segment.statements, segs.flatMap Segment.obstacles, rest⟩ := read
  rw [whole] at ended
  obtain rfl : rest = [] := ended
  have errors : (Program.ofStream s).errors =
      (segs.flatMap Segment.obstacles).map (·.error s.stop) := by
    rw [errors_ofStream, whole]
  refine ⟨segs, attempted, ?tiled, fun seg mem => (all seg mem).1, fun seg mem => (all seg mem).2,
    ?answered, congrArg (·.statements) whole, errors, ?held, ?clean⟩
  case tiled => simpa using attempted.tokens.symm
  case answered =>
    intro seg mem
    have derives := (all seg mem).2.derives
    cases seg with
    | read ts n skips => exact .inl ⟨n, rfl, derives n (List.mem_singleton.mpr rfl)⟩
    | skipped skip =>
      refine .inr ⟨rfl, ?_⟩
      simpa [Segment.obstacles, Segment.skips] using skip.obstacles_ne_nil
  case held => exact tokensAll_eq_flatMap _ ▸ (statements_derive s).tokens
  case clean =>
    rw [errors, List.map_eq_nil_iff, Segment.flatMap_obstacles, Skip.flatMap_obstacles_eq_nil]

/-- Every list of tokens that closes with an end of input is read, and what is read off the tokens in
front of the first end of input is genuine: these fall into segments, one for each attempt at a
declaration, and each segment yields a statement that derives from it or brings an error. -/
theorem ofTokens?_segmented (front : List Token) (stop : Token) (ends : stop.kind = .endOfInput) :
    ∃ s, TokenStream.ofTokens? (front ++ [stop]) = some s ∧
      s.body = (front ++ [stop]).takeWhile (·.kind != .endOfInput) ∧ ∃ segs, Segmented s segs := by
  obtain ⟨s, given, body⟩ := ofTokens?_of_ends ends
  exact ⟨s, given, body, exists_segmented s⟩

/-- The text `}; { print 1; = 2; } {` -/
def littered : List Token :=
  [⟨.symbol .rightBrace, "\x7d", 1⟩, ⟨.symbol .semicolon, ";", 1⟩, ⟨.symbol .leftBrace, "\x7b", 1⟩,
    ⟨.keyword .print, "print", 1⟩, ⟨.number, "1", 1⟩, ⟨.symbol .semicolon, ";", 1⟩,
    ⟨.symbol .equal, "=", 2⟩, ⟨.number, "2", 2⟩, ⟨.symbol .semicolon, ";", 2⟩,
    ⟨.symbol .rightBrace, "\x7d", 2⟩, ⟨.symbol .leftBrace, "\x7b", 3⟩]

theorem littered_segmented : ∃ s,
    TokenStream.ofTokens? (littered ++ [⟨.endOfInput, "", 3⟩]) = some s ∧ s.body = littered ∧
      (Program.ofStream s).statements = [.block [.print (.literal ⟨.number, "1", 1⟩)]] ∧
      (Program.ofStream s).errors.map (·.found.lexeme) = ["\x7d", "=", ""] ∧
      ∃ segs, Segmented s segs := by
  obtain ⟨s, given, _, segmented⟩ := ofTokens?_segmented littered ⟨.endOfInput, "", 3⟩ rfl
  cases given
  exact ⟨_, rfl, rfl, rfl, by decide, segmented⟩

end Grammar

end Scriptlet
