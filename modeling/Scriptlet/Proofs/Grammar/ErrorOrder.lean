import Scriptlet.Proofs.Grammar.FirstError
import Scriptlet.Proofs.Grammar.Recovery
import Scriptlet.Proofs.Token.Places

/-! The order of errors. Reading resumes behind the token that an error names, so the errors of a text
name its tokens in order and none of them twice. Only where the input ends may errors pile up, one
for the declaration that breaks off there and one for each block that is still open. -/
namespace Scriptlet.Grammar

open Outcome (FailsOnly)
open Scriptlet.Program (Attempt Recovered blockDone boundary chain declaration initialValue isOneOf
  many require resync terminated variableDeclaration)

/-- Reading stands at the token that the obstacle names, or behind it. -/
def Forward (o : Obstacle) : Prop := o.rest <:+ o.named

theorem forward_here (cause : ParseError.Cause) (ts : List Token) : Forward (.here cause ts) :=
  List.suffix_refl ts

theorem require_forward (s : Symbol) (cause : ParseError.Cause) (ts : List Token) :
    FailsOnly Forward (require s cause ts) := by
  intro o required
  rw [require_error required]
  exact forward_here cause ts

theorem chain_forward {operators : List Symbol}
    {operand : List Token → Except Obstacle (Node × List Token)}
    (each : ∀ ts, FailsOnly Forward (operand ts)) (fuel : Nat) (left : Node) (ts : List Token) :
    FailsOnly Forward (chain operators operand fuel left ts) := by
  induction fuel generalizing left ts with
  | zero => exact .ok _
  | succ fuel ih =>
    cases ts with
    | nil => exact .ok _
    | cons t ts =>
      unfold chain
      split
      · exact (each ts).bind fun next => ih _ next.2
      · exact .ok _

section Expressions

variable {d : Nat} (forward : ∀ c ts, FailsOnly Forward (Category.read d c ts))
include forward

/-- Where the target of an assignment is at fault, its value has been read. -/
theorem expression_forward (ts : List Token) :
    FailsOnly Forward (Category.expression.read (d + 1) ts) := by
  intro o read
  rw [read_expression] at read
  rcases Outcome.bind_eq_error.mp read with first | ⟨⟨target, after⟩, _, others⟩
  · exact forward _ ts o first
  cases after with
  | nil => cases others
  | cons t after =>
    simp only at others
    split at others
    · rcases Outcome.bind_eq_error.mp others with second | ⟨⟨value, rest⟩, second, made⟩
      · exact forward _ after o second
      · cases target with
        | reference name => cases made
        | _ =>
          cases made
          exact (read_suffix second).trans (List.suffix_cons t after)
    · cases others

theorem unary_forward (ts : List Token) : FailsOnly Forward (Category.unary.read (d + 1) ts) := by
  rw [read_unary]
  split
  · exact forward _ _
  next t ts =>
    split
    · exact (forward .unary ts).bind fun _ => .ok _
    · exact forward _ _

theorem primary_forward (ts : List Token) :
    FailsOnly Forward (Category.primary.read (d + 1) ts) := by
  rw [read_primary]
  split
  · exact .error (forward_here _ _)
  next t ts =>
    split
    · exact .ok _
    split
    · exact .ok _
    split
    · exact (forward .expression ts).bind fun _ => (require_forward _ _ _).bind fun _ => .ok _
    · exact .error (forward_here _ _)

end Expressions

theorem read_forward (d : Nat) (c : Category) (ts : List Token) :
    FailsOnly Forward (c.read d ts) := by
  induction d generalizing c ts with
  | zero =>
    rw [read_zero]
    exact .error (forward_here _ _)
  | succ d ih =>
    cases c with
    | expression => exact expression_forward ih ts
    | binary level =>
      rw [read_binary]
      exact (ih level.operand ts).bind fun _ => chain_forward (ih level.operand) _ _ _
    | unary => exact unary_forward ih ts
    | primary => exact primary_forward ih ts

theorem terminated_forward (make : Node → Node) (cause : ParseError.Cause) (depth : Nat)
    (ts : List Token) : FailsOnly Forward (terminated make cause depth ts) :=
  (read_forward depth .expression ts).bind fun _ => (require_forward _ _ _).bind fun _ => .ok _

theorem variableDeclaration_forward (depth : Nat) (ts : List Token) :
    FailsOnly Forward (variableDeclaration depth ts) := by
  have initial : ∀ ts, FailsOnly Forward (initialValue depth ts) := by
    intro ts
    unfold initialValue
    split
    · exact .ok _
    split
    · exact read_forward depth .expression _
    · exact .ok _
  unfold variableDeclaration
  split
  · exact .error (forward_here _ _)
  split
  · exact (initial _).bind fun _ => (require_forward _ _ _).bind fun _ => .ok _
  · exact .error (forward_here _ _)

theorem declaration_forward (levels : Nat) (ts : List Token) :
    FailsOnly Forward (declaration levels ts).outcome := by
  cases levels with
  | zero => exact .error (forward_here _ _)
  | succ l =>
    unfold declaration
    split
    · exact terminated_forward _ _ _ _
    split
    · exact variableDeclaration_forward _ _
    · exact terminated_forward _ _ _ _
    · exact (require_forward _ _ _).bind fun _ => .ok _
    · exact terminated_forward _ _ _ _

/-- Reading resumes behind the token that is named, if there is one. -/
theorem resync_behind {o : Obstacle} (forward : Forward o) : resync o.rest <:+ o.named.tail := by
  unfold Forward at forward
  cases named : o.named with
  | nil =>
    rw [named] at forward
    rw [List.suffix_nil.mp forward]
    exact List.suffix_refl []
  | cons t ts =>
    rw [named] at forward
    exact resync_suffix forward

/-- Obstacles in the order in which their tokens stand in a text, each behind all that the one before
it names, with what is left of the text when the last of them is passed. -/
structure Ordered (ts : List Token) (os : List Obstacle) (rest : List Token) : Prop where
  inside : ∀ o ∈ os, o.named <:+ ts
  apart : os.Pairwise fun o p => p.named <:+ o.named.tail
  passed : ∀ o ∈ os, rest <:+ o.named.tail

namespace Ordered

variable {ts us rest : List Token} {os qs : List Obstacle}

theorem nil (ts rest : List Token) : Ordered ts [] rest := ⟨nofun, .nil, nofun⟩

theorem mono (h : Ordered us os rest) (within : us <:+ ts) (left : rest' <:+ rest) :
    Ordered ts os rest' where
  inside o mem := (h.inside o mem).trans within
  apart := h.apart
  passed o mem := left.trans (h.passed o mem)

theorem append (first : Ordered ts os us) (within : us <:+ ts) (others : Ordered us qs rest)
    (left : rest <:+ us) : Ordered ts (os ++ qs) rest where
  inside := List.forall_mem_append.mpr
    ⟨first.inside, fun o mem => (others.inside o mem).trans within⟩
  apart := List.pairwise_append.mpr ⟨first.apart, others.apart,
    fun o mem p mem' => (others.inside p mem').trans (first.passed o mem)⟩
  passed := List.forall_mem_append.mpr
    ⟨fun o mem => left.trans (first.passed o mem), others.passed⟩

theorem single {o : Obstacle} (within : o.named <:+ ts) (forward : Forward o) :
    Ordered ts [o] (resync o.rest) where
  inside := List.forall_mem_singleton.mpr within
  apart := List.pairwise_singleton _ _
  passed := List.forall_mem_singleton.mpr (resync_behind forward)

end Ordered

/-- An attempt meets its obstacles in order, and is settled behind the last of them. -/
def Orderly (read : List Token → Attempt) : Prop :=
  ∀ ts, Ordered ts (read ts).settle.obstacles (read ts).settle.rest

theorem many_ordered {read : List Token → Attempt} (orderly : Orderly read)
    (faithful : Faithful read) {done : List Token → Bool} (stops : done [] = true)
    (enough : ts.length ≤ fuel) :
    Ordered ts (many read done fuel ts).obstacles (many read done fuel ts).rest := by
  induction fuel generalizing ts with
  | zero => exact .nil _ _
  | succ fuel ih =>
    cases going : done ts with
    | true =>
      rw [many_done going]
      exact .nil _ _
    | false =>
      cases ts with
      | nil => cases stops.symm.trans going
      | cons t ts =>
        have behind := faithful.settle_suffix t ts
        have shorter : (read (t :: ts)).settle.rest.length ≤ fuel :=
          behind.length_le.trans (Nat.le_of_succ_le_succ enough)
        rw [many_next going]
        exact (orderly (t :: ts)).append (behind.trans (List.suffix_cons t ts)) (ih shorter)
          (faithful.many_suffix stops shorter)

theorem body_ended (l : Nat) (ts : List Token) :
    blockDone (many (declaration l) blockDone ts.length ts).rest = true := by
  have slack : Slack (fun us => us ≠ [])
      (many (declaration l) blockDone ts.length ts).obstacles := fun _ _ => id
  exact ((declaration_faithful l).many_derives rfl (Nat.le_refl _) slack).1

theorem braced (braced : ¬ Unbraced ts) :
    ∃ t, ts.head? = some t ∧ t.kind = .symbol .leftBrace := by
  simpa [Unbraced] using braced

/-- Outside a block at most one obstacle is met. -/
theorem settle_unbraced (plain : Unbraced ts) (l : Nat) :
    (declaration (l + 1) ts).settle.obstacles = [] ∨
      ∃ o, (declaration (l + 1) ts).outcome = .error o ∧
        (declaration (l + 1) ts).settle = ⟨[], [o], resync o.rest⟩ := by
  have inner := declaration_inner plain l
  cases outcome : (declaration (l + 1) ts).outcome with
  | ok result =>
    rw [settle_ok outcome]
    exact .inl inner
  | error o =>
    rw [settle_error outcome, inner]
    exact .inr ⟨o, rfl, rfl⟩

/-- A block meets the obstacles of its body, and one of its own only where the input ends. -/
theorem settle_block {brace : Token} (opening : brace.kind = .symbol .leftBrace) (l : Nat)
    (ts : List Token) :
    let body := many (declaration l) blockDone ts.length ts
    (∃ close rest, body.rest = close :: rest ∧
      (declaration (l + 1) (brace :: ts)).settle = ⟨[.block body.statements], body.obstacles, rest⟩) ∨
    (declaration (l + 1) (brace :: ts)).settle =
      ⟨[], body.obstacles ++ [.here .endOfBlock []], []⟩ := by
  intro body
  have ended : blockDone body.rest = true := body_ended l ts
  rw [declaration_block opening, Attempt.settle]
  cases left : body.rest with
  | nil =>
    simp only [body] at left
    simp only [left]
    exact .inr rfl
  | cons close rest =>
    rw [left] at ended
    have closing : close.kind = .symbol .rightBrace := of_decide_eq_true ended
    simp only [body] at left
    simp only [left, require, if_pos closing]
    exact .inl ⟨close, rest, rfl, rfl⟩

theorem declaration_orderly (levels : Nat) : Orderly (declaration levels) := by
  induction levels with
  | zero =>
    intro ts
    exact .single (List.suffix_refl ts) (forward_here _ ts)
  | succ l ih =>
    intro ts
    by_cases plain : Unbraced ts
    · rcases settle_unbraced plain l with none | ⟨o, outcome, settled⟩
      · rw [none]
        exact .nil _ _
      · rw [settled]
        exact .single (declaration_obstructs plain outcome).1.suffix
          (declaration_forward _ ts o outcome)
    · obtain ⟨brace, first, opening⟩ := braced plain
      obtain ⟨ts, rfl⟩ := List.head?_eq_some_iff.mp first
      have body := many_ordered ih (declaration_faithful l) (rfl : blockDone [] = true)
        (Nat.le_refl ts.length)
      rcases settle_block opening l ts with ⟨close, rest, left, settled⟩ | settled
      · rw [settled]
        exact body.mono (List.suffix_cons brace ts) (left ▸ List.suffix_cons close rest)
      · rw [settled]
        exact (body.mono (List.suffix_cons brace ts) List.nil_suffix).append List.nil_suffix
          (.single (List.suffix_refl []) (forward_here _ _)) List.nil_suffix

/-! ### Errors at the end of input -/

/-- How many obstacles are met where the input ends. -/
def atEnd (os : List Obstacle) : Nat := os.countP (·.named.isEmpty)

def leftBraces (ts : List Token) : Nat := ts.countP (·.kind = .symbol .leftBrace)

theorem atEnd_append (os qs : List Obstacle) : atEnd (os ++ qs) = atEnd os + atEnd qs :=
  List.countP_append

theorem atEnd_le_length (os : List Obstacle) : atEnd os ≤ os.length := List.countP_le_length

/-- As long as tokens are left, no obstacle has been met at the end. -/
theorem Ordered.atEnd_eq_zero (ordered : Ordered ts os rest) (left : rest ≠ []) : atEnd os = 0 := by
  refine List.countP_eq_zero.mpr fun o mem ended => ?_
  have passed := ordered.passed o mem
  rw [List.isEmpty_iff.mp ended] at passed
  exact left (List.suffix_nil.mp passed)

/-- Only the last attempt of a sequence can meet obstacles at the end. -/
theorem many_atEnd {read : List Token → Attempt} (orderly : Orderly read)
    (faithful : Faithful read) {done : List Token → Bool} (stops : done [] = true)
    (few : ∀ us, atEnd (read us).settle.obstacles ≤ leftBraces us + 1) (fuel : Nat) :
    atEnd (many read done fuel ts).obstacles ≤ leftBraces ts + 1 := by
  induction fuel generalizing ts with
  | zero => exact Nat.zero_le _
  | succ fuel ih =>
    cases going : done ts with
    | true =>
      rw [many_done going]
      exact Nat.zero_le _
    | false =>
      cases ts with
      | nil => cases stops.symm.trans going
      | cons t ts =>
        have behind := (faithful.settle_suffix t ts).trans (List.suffix_cons t ts)
        rw [many_next going, atEnd_append]
        by_cases left : (read (t :: ts)).settle.rest = []
        · have nothing : many read done fuel [] = ⟨[], [], []⟩ := by
            cases fuel with
            | zero => rfl
            | succ fuel => exact many_done stops
          rw [left, nothing]
          exact few (t :: ts)
        · have others := @ih (read (t :: ts)).settle.rest
          have fewer : leftBraces (read (t :: ts)).settle.rest ≤ leftBraces (t :: ts) :=
            behind.sublist.countP_le
          rw [(orderly (t :: ts)).atEnd_eq_zero left]
          omega

theorem declaration_atEnd (levels : Nat) (ts : List Token) :
    atEnd (declaration levels ts).settle.obstacles ≤ leftBraces ts + 1 := by
  induction levels generalizing ts with
  | zero => exact (atEnd_le_length _).trans (Nat.le_add_left 1 _)
  | succ l ih =>
    by_cases plain : Unbraced ts
    · have single : (declaration (l + 1) ts).settle.obstacles.length ≤ 1 := by
        rcases settle_unbraced plain l with none | ⟨o, _, settled⟩
        · rw [none]
          exact Nat.zero_le 1
        · rw [settled]
          exact Nat.le_refl 1
      exact ((atEnd_le_length _).trans single).trans (Nat.le_add_left 1 _)
    · obtain ⟨brace, first, opening⟩ := braced plain
      obtain ⟨ts, rfl⟩ := List.head?_eq_some_iff.mp first
      have body : atEnd (many (declaration l) blockDone ts.length ts).obstacles ≤ leftBraces ts + 1 :=
        many_atEnd (declaration_orderly l) (declaration_faithful l) rfl ih ts.length
      have counted : leftBraces (brace :: ts) = leftBraces ts + 1 :=
        List.countP_cons_of_pos (decide_eq_true opening)
      rcases settle_block opening l ts with ⟨close, rest, left, settled⟩ | settled
      · rw [settled, counted]
        exact body.trans (Nat.le_succ _)
      · rw [settled, counted]
        dsimp only
        rw [atEnd_append]
        exact Nat.add_le_add body (atEnd_le_length _)

section Stream

variable (s : TokenStream)

/-- Where the tokens stand that the errors of a stream name, in the order of the errors. -/
def errorPlaces : List Nat := (recovered s.body).obstacles.map (placeOf s)

theorem recovered_ordered : Ordered s.body (recovered s.body).obstacles [] := by
  have ordered := many_ordered (declaration_orderly blockLevels) (declaration_faithful blockLevels)
    passes_isEmpty.stops (Nat.le_refl s.body.length)
  exact ordered.mono (List.suffix_refl _) List.nil_suffix

variable {s} in
theorem getElem?_of_mem_recovered (mem : o ∈ (recovered s.body).obstacles) :
    s.toList[placeOf s o]? = some (o.error s.stop).found := by
  obtain ⟨before, whole⟩ := (recovered_ordered s).inside o mem
  exact getElem?_placeOf whole.symm

theorem found_errorPlaces : List.Forall₂ (fun e place => s.toList[place]? = some e.found)
    (Program.ofStream s).errors (errorPlaces s) := by
  rw [errors_ofStream, errorPlaces, List.forall₂_map_left_iff, List.forall₂_map_right_iff,
    List.forall₂_same]
  exact fun o => getElem?_of_mem_recovered

/-- Two errors in one place are both met where the input ends. -/
theorem pairwise_errorPlaces :
    (errorPlaces s).Pairwise fun p q => p ≤ q ∧ (p = q → p = s.body.length) := by
  refine List.pairwise_map.mpr ((recovered_ordered s).apart.imp_of_mem ?_)
  intro o p mem _ behind
  have within := ((recovered_ordered s).inside o mem).length_le
  have shorter := behind.length_le
  rw [List.length_tail] at shorter
  unfold placeOf
  omega

theorem count_errorPlaces : (errorPlaces s).count s.body.length ≤ leftBraces s.body + 1 := by
  have bound : atEnd (recovered s.body).obstacles ≤ leftBraces s.body + 1 :=
    many_atEnd (declaration_orderly blockLevels) (declaration_faithful blockLevels)
      passes_isEmpty.stops (declaration_atEnd blockLevels) s.body.length
  refine Nat.le_trans (Nat.le_of_eq ?_) bound
  rw [errorPlaces, List.count, List.countP_map]
  refine List.countP_congr fun o mem => ?_
  have within := ((recovered_ordered s).inside o mem).length_le
  have empty : o.named = [] ↔ o.named.length = 0 := List.length_eq_zero_iff.symm
  simp only [Function.comp_apply, placeOf, beq_iff_eq, List.isEmpty_iff, empty]
  omega

variable {s} in
/-- If the lines of the tokens never decrease, nor do those of the errors. -/
theorem pairwise_line_errors (sorted : s.toList.Pairwise (·.line ≤ ·.line)) :
    (Program.ofStream s).errors.Pairwise (·.found.line ≤ ·.found.line) := by
  have places := List.pairwise_map.mp (pairwise_errorPlaces s)
  refine List.pairwise_map.mpr (places.imp_of_mem ?_)
  intro o p mem mem' order
  obtain ⟨within, found⟩ := List.getElem?_eq_some_iff.mp (getElem?_of_mem_recovered mem)
  obtain ⟨within', found'⟩ := List.getElem?_eq_some_iff.mp (getElem?_of_mem_recovered mem')
  rw [← found, ← found']
  rcases Nat.lt_or_eq_of_le order.1 with before | same
  · exact List.pairwise_iff_getElem.mp sorted _ _ within within' before
  · simp only [same, Int.le_refl]

end Stream

/-- Every list of tokens that closes with an end of input is read. Its errors name tokens in order,
and none twice but the first end of input: that one is named at most once more often than braces are
opened in front of it. So the errors of a source text are reported in the order of its lines. -/
theorem errors_in_order :
    (∀ (front : List Token) (stop : Token), stop.kind = .endOfInput →
      ∃ s, TokenStream.ofTokens? (front ++ [stop]) = some s ∧
        s.body = (front ++ [stop]).takeWhile (·.kind != .endOfInput) ∧
        List.Forall₂ (fun e place => (front ++ [stop])[place]? = some e.found)
          (Program.ofStream s).errors (errorPlaces s) ∧
        (errorPlaces s).Pairwise (fun p q => p ≤ q ∧ (p = q → p = s.body.length)) ∧
        (errorPlaces s).count s.body.length ≤ leftBraces s.body + 1) ∧
    ∀ source, (Program.ofStream (Source.stream source)).errors.Pairwise
      (·.found.line ≤ ·.found.line) := by
  refine ⟨fun front stop ends => ?_, fun source => ?_⟩
  · obtain ⟨s, given, body⟩ := @ofTokens?_of_ends front stop ends
    refine ⟨s, given, body, ?_, pairwise_errorPlaces s, count_errorPlaces s⟩
    rw [← TokenStream.toList_of_ofTokens? given]
    exact found_errorPlaces s
  · exact pairwise_line_errors (Source.pairwise_toList source)

/-- In `{ { 1 = 2; 3` the equals sign is named, and then the end three times: by the statement that
breaks off there and by both blocks. -/
example : (Program.ofStream (Source.stream "\x7b \x7b 1 = 2; 3")).errors.map (·.found.lexeme) =
    ["=", "", "", ""] := by cbv

end Scriptlet.Grammar
