import Scriptlet.Proofs.Cursor.Expression
import Scriptlet.Proofs.Grammar.Recognition
import Scriptlet.Proofs.Token.Stream

/-! Programs read by place: the statements and errors are those of the stream, every loop ends by
itself, and no look or step goes wrong on the way. -/
namespace Scriptlet.Cursor

open Scriptlet.Grammar (Faithful declaration_faithful settle_ok settle_error)
open Scriptlet.Program (Attempt boundary resync)

section Recovery

variable {s : TokenStream} {ts us rest : List Token} {turns : Nat}

theorem Does.tryCatch_ok {a : Reader α} {handle : Stop → Reader α}
    (h : Does s a ts (.ok x) es rest) : Does s (tryCatch a handle) ts (.ok x) es rest := by
  refine ⟨h.suffix, fun m stands => ?_⟩
  obtain ⟨events, sound, run⟩ := h.run m stands
  exact ⟨events, sound, by rw [exec_tryCatch, run]⟩

theorem Does.tryCatch_error {a : Reader α} {handle : Stop → Reader α}
    (first : Does s a ts (.error e) es us) (next : Does s (handle e) us v fs rest) :
    Does s (tryCatch a handle) ts v (es ++ fs) rest := by
  refine ⟨next.suffix.trans first.suffix, fun m stands => ?_⟩
  obtain ⟨events, sound, run⟩ := first.run m stands
  obtain ⟨others, sound', run'⟩ :=
    next.run ⟨place s us, m.errors ++ es, m.journal ++ events⟩ rfl
  refine ⟨events ++ others, List.forall_mem_append.mpr ⟨sound, sound'⟩, ?_⟩
  rw [exec_tryCatch, run]
  simp only [run', List.append_assoc]

theorem Does.keep (e : ParseError) : Does s
    (modify fun m => { m with errors := m.errors ++ [e] } : Reader Unit) ts (.ok ()) [e] ts := by
  refine ⟨List.suffix_refl ts, fun m stands => ⟨[], nofun, ?_⟩⟩
  rw [← stands, List.append_nil]
  rfl

theorem does_seek (left : t :: ts <:+ s.body) (enough : ts.length < turns) :
    Does s (seek s.toList turns) ts (.ok ()) [] (boundary t ts) := by
  induction turns generalizing t ts with
  | zero => exact absurd enough (Nat.not_lt_zero _)
  | succ n ih =>
    have behind := (List.suffix_cons t ts).trans left
    refine (does_atEnd behind).bind ?_
    cases ts with
    | nil => exact .pure ()
    | cons t' ts =>
      refine (does_previous left).bind ?_
      rw [boundary]
      by_cases last : t.kind = .symbol .semicolon
      · simp only [last, if_true, true_or]
        exact .pure ()
      simp only [last, if_false, false_or]
      refine (does_peek behind).bind ?_
      by_cases opening : t'.kind.opensStatement = true
      · simp only [List.headD_cons, opening, if_true]
        exact .pure ()
      · simp only [List.headD_cons, opening, if_false, Bool.false_eq_true]
        exact (does_advance behind).discard.bind (ih behind (Nat.lt_of_succ_lt_succ enough))

theorem does_synchronize (begun : s.body ≠ []) (left : ts <:+ s.body) (enough : s.body.length < turns) :
    Does s (synchronize s.toList turns) ts (.ok ()) [] (resync ts) := by
  cases ts with
  | nil =>
    obtain ⟨t, stays⟩ := does_advance_end begun
    obtain ⟨n, rfl⟩ : ∃ n, turns = n + 1 := ⟨turns - 1, by omega⟩
    exact stays.discard.bind ((does_atEnd left).bind (.pure ()))
  | cons t ts =>
    have shorter := left.length_le
    simp only [List.length_cons] at shorter
    exact (does_advance left).discard.bind (does_seek left (by omega))

/-- A reader does at a place what an attempt at a declaration comes to with the tokens from there on. -/
def Carries (s : TokenStream) (read : Reader Node) (ts : List Token) (a : Attempt) : Prop :=
  match a.outcome with
  | .ok (n, rest) => Does s read ts (.ok n) (a.inner.map (·.error s.stop)) rest
  | .error o =>
    Does s read ts (.error (.error (o.error s.stop))) (a.inner.map (·.error s.stop)) o.rest

theorem Mirrors.carries {read : Reader Node} {outcome : Except Obstacle (Node × List Token)}
    (h : Mirrors s read ts outcome) : Carries s read ts ⟨[], outcome⟩ := by
  cases outcome <;> exact h

theorem Carries.of_step {a : Reader α} {f : α → Reader Node} {attempt : Attempt}
    (step : Does s a ts (.ok x) [] us) (next : Carries s (f x) us attempt) :
    Carries s (a >>= f) ts attempt := by
  unfold Carries at next ⊢
  split <;> rename_i outcome <;> rw [outcome] at next <;> exact step.bind next

/-- Obstacles met inside come before the one that ends the attempt. -/
theorem Carries.of_inner {a : Reader α} {f : α → Reader Node} {os : List Obstacle}
    {outcome : Except Obstacle (Node × List Token)}
    (step : Does s a ts (.ok x) (os.map (·.error s.stop)) us) (next : Mirrors s (f x) us outcome) :
    Carries s (a >>= f) ts ⟨os, outcome⟩ := by
  unfold Carries
  rw [← List.append_nil (List.map _ _)]
  cases outcome <;> exact step.bind next

theorem toList_head?_settle (a : Attempt) :
    a.settle.statements.head?.toList = a.settle.statements := by
  obtain ⟨inner, outcome⟩ := a
  cases outcome with
  | ok result => rfl
  | error o => rfl

/-- An attempt gets on, whether it succeeds or not. -/
theorem does_attempt {read : Reader Node} {a : Attempt} (left : t :: ts <:+ s.body)
    (enough : s.body.length < turns) (carries : Carries s read (t :: ts) a)
    (gets : a.settle.rest <:+ ts) :
    Does s (attempt s.toList turns read) (t :: ts) (.ok a.settle.statements.head?)
      (a.settle.obstacles.map (·.error s.stop)) a.settle.rest := by
  have begun : s.body ≠ [] := List.ne_nil_of_mem (left.mem List.mem_cons_self)
  have sound : (Event.attempted (place s (t :: ts)) (place s a.settle.rest)).Sound s.body.length := by
    have shorter := gets.length_le
    have within := left.length_le
    simp only [List.length_cons] at within
    simp only [Event.Sound, place, List.length_cons]
    omega
  have caught : Does s (tryCatch (read >>= fun n => return some n) (recover s.toList turns)) (t :: ts)
      (.ok a.settle.statements.head?) (a.settle.obstacles.map (·.error s.stop)) a.settle.rest := by
    unfold Carries at carries
    split at carries
    next n rest outcome =>
      rw [settle_ok outcome, ← List.append_nil (List.map _ _)]
      exact (carries.bind (.pure (some n))).tryCatch_ok
    next o outcome =>
      rw [settle_error outcome, List.map_append]
      refine (Does.bind_error carries).tryCatch_error ?_
      have within := carries.suffix.trans left
      exact (Does.keep _).bind ((does_synchronize begun within enough).bind (.pure none))
  refine Does.get_place fun m stands => ?_
  rw [← List.append_nil (List.map _ _)]
  refine caught.bind (Does.get_place fun m' stands' => ?_)
  rw [stands, stands']
  exact (Does.note sound).bind (.pure _)

end Recovery

section Statements

variable {s : TokenStream} {ts us rest : List Token} {turns : Nat} (enough : s.body.length < turns)
include enough

theorem mirrors_value (left : ts <:+ s.body) (depth : Nat) :
    Mirrors s (expression s.toList turns depth) ts (Program.expression depth ts) :=
  mirrors_read enough depth .expression ts left

theorem mirrors_initialValue (left : ts <:+ s.body) (depth : Nat) :
    Mirrors s (initialValue s.toList turns depth) ts (Program.initialValue depth ts) := by
  cases ts with
  | nil => exact .of_step (does_not_accept left headless) (.pure _)
  | cons t ts =>
    by_cases sign : t.kind = .symbol .equal
    · simp only [Program.initialValue, sign, if_true]
      refine .of_step (does_accept left (List.mem_singleton.mpr sign)) ?_
      exact mirrors_value enough ((List.suffix_cons t ts).trans left) depth
    · simp only [Program.initialValue, sign, if_false]
      refine .of_step (does_not_accept left ?_) (.pure _)
      rintro _ ⟨⟩ own
      exact sign (List.mem_singleton.mp own)

theorem mirrors_variableDeclaration (left : ts <:+ s.body) (depth : Nat) :
    Mirrors s (variableDeclaration s.toList turns depth) ts
      (Program.variableDeclaration depth ts) := by
  cases ts with
  | nil => exact (does_not_require left headless _).bind_error
  | cons name ts =>
    by_cases named : name.kind = .identifier
    · simp only [Program.variableDeclaration, named, if_true]
      have behind := (List.suffix_cons name ts).trans left
      refine .of_step (does_require left named _) ?_
      refine .bind behind (mirrors_initialValue enough behind depth) fun _ _ _ within => ?_
      exact mirrors_closing within _ _ _
    · simp only [Program.variableDeclaration, named, if_false]
      refine (does_not_require left ?_ _).bind_error
      rintro _ ⟨⟩
      exact named

theorem mirrors_terminated (left : ts <:+ s.body) (make : Node → Node) (cause : ParseError.Cause)
    (depth : Nat) : Mirrors s (terminated s.toList make cause turns depth) ts
      (Program.terminated make cause depth ts) :=
  .bind left (mirrors_value enough left depth) fun _ _ _ within => mirrors_closing within _ _ _

end Statements

/-- Whatever the tokens at a place are, a reader does what settling an attempt at them does. -/
def Settles (s : TokenStream) (a : Reader (Option Node)) (read : List Token → Attempt) : Prop :=
  ∀ t ts, t :: ts <:+ s.body → Does s a (t :: ts) (.ok (read (t :: ts)).settle.statements.head?)
    ((read (t :: ts)).settle.obstacles.map (·.error s.stop)) (read (t :: ts)).settle.rest

section Sequence

variable {s : TokenStream} {ts : List Token} {turns : Nat}

/-- As many turns as there are tokens, and one to see that there are no more, are enough. -/
theorem does_many {read : List Token → Attempt} {a : Reader (Option Node)}
    {done : List Token → Bool} {ending : Reader Bool} (faithful : Faithful read)
    (settles : Settles s a read) (ends : ∀ us, us <:+ s.body → Does s ending us (.ok (done us)) [] us)
    (stops : done [] = true) (left : ts <:+ s.body) (enough : ts.length ≤ fuel) :
    Does s (many a ending (fuel + 1)) ts (.ok (Program.many read done fuel ts).statements)
      ((Program.many read done fuel ts).obstacles.map (·.error s.stop))
      (Program.many read done fuel ts).rest := by
  induction fuel generalizing ts with
  | zero =>
    obtain rfl := List.length_eq_zero_iff.mp (Nat.le_zero.mp enough)
    refine (ends [] left).bind ?_
    rw [stops]
    exact .pure []
  | succ fuel ih =>
    refine (ends ts left).bind ?_
    cases going : done ts with
    | true =>
      rw [Grammar.many_done going]
      exact .pure []
    | false =>
      cases ts with
      | nil => cases stops.symm.trans going
      | cons t ts =>
        have gets := faithful.settle_suffix t ts
        have behind := (gets.trans (List.suffix_cons t ts)).trans left
        have shorter : (read (t :: ts)).settle.rest.length ≤ fuel := by
          have := gets.length_le
          simp only [List.length_cons] at enough
          omega
        have others := ih behind shorter
        rw [Grammar.many_next going]
        simp only [List.map_append]
        rw [← toList_head?_settle (read (t :: ts)),
          ← List.append_nil (List.map _ (Program.many _ _ _ _).obstacles)]
        exact (settles t ts left).bind (others.bind (.pure _))

theorem does_blockDone (left : ts <:+ s.body) :
    Does s (blockDone s.toList) ts (.ok (Program.blockDone ts)) [] ts := by
  refine (does_check left (.symbol .rightBrace)).bind ?_
  cases ts with
  | nil => exact does_atEnd left
  | cons t ts =>
    by_cases closing : t.kind = .symbol .rightBrace
    · simp only [Program.blockDone, List.head?_cons, Option.any_some, closing, decide_true, if_true]
      exact .pure true
    · simp only [Program.blockDone, List.head?_cons, Option.any_some, closing, decide_false,
        Bool.false_eq_true, if_false]
      exact does_atEnd left

variable (enough : s.body.length < turns)
include enough

theorem does_declaration (levels : Nat) :
    Settles s (declaration s.toList turns levels) (Program.declaration levels) := by
  induction levels with
  | zero =>
    intro t ts left
    exact does_attempt left enough (mirrors_fail left .tooDeep).carries
      ((declaration_faithful 0).settle_suffix t ts)
  | succ l ih =>
    intro t ts left
    refine does_attempt left enough ?_ ((declaration_faithful (l + 1)).settle_suffix t ts)
    have behind := (List.suffix_cons t ts).trans left
    have other : ∀ {kind : TokenKind}, t.kind ≠ kind → ∀ t' ∈ (t :: ts).head?, t'.kind ∉ [kind] := by
      rintro kind no _ ⟨⟩ own
      exact no (List.mem_singleton.mp own)
    by_cases declares : t.kind = .keyword .var
    · simp only [Program.declaration, declares]
      exact .of_step (does_accept left (List.mem_singleton.mpr declares))
        (mirrors_variableDeclaration enough behind _).carries
    refine .of_step (does_not_accept left (other declares)) ?_
    by_cases prints : t.kind = .keyword .print
    · simp only [Program.declaration, prints]
      exact .of_step (does_accept left (List.mem_singleton.mpr prints))
        (mirrors_terminated enough behind _ _ _).carries
    refine .of_step (does_not_accept left (other prints)) ?_
    by_cases opening : t.kind = .symbol .leftBrace
    · rw [Grammar.declaration_block opening]
      refine .of_step (does_accept left (List.mem_singleton.mpr opening)) ?_
      obtain ⟨f, rfl⟩ : ∃ f, turns = f + 1 := ⟨turns - 1, by omega⟩
      have fits : ts.length ≤ f := by
        have := behind.length_le
        omega
      have faithful := declaration_faithful l
      have body := does_many faithful ih (fun us => does_blockDone) rfl behind fits
      rw [faithful.many_fuel rfl fits (Nat.le_refl ts.length)] at body
      have within := body.suffix.trans behind
      exact .of_inner body (mirrors_closing within _ _ _)
    · refine .of_step (does_not_accept left (other opening)) ?_
      have plain : Program.declaration (l + 1) (t :: ts) = ⟨[], Program.terminated .expression
          .endOfExpression (Program.stepsPerBlock * (l + 1)) (t :: ts)⟩ := by
        simp only [Program.declaration]
      rw [plain]
      exact (mirrors_terminated enough left _ _ _).carries

end Sequence

section Stream

variable {s : TokenStream}

/-- A stream is read by place to its first end of input, and what is read is what the stream holds. -/
theorem exec_program (s : TokenStream) (enough : s.toList.length ≤ turns) :
    ∃ m, exec (program s.toList turns) .start = (.ok (Program.ofStream s).statements, m) ∧
      m.place = s.body.length ∧ m.errors = (Program.ofStream s).errors ∧
      ∀ event ∈ m.journal, event.Sound s.body.length := by
  have room : s.body.length < turns := by
    simp only [TokenStream.toList, List.length_append, List.length_cons] at enough
    omega
  obtain ⟨f, rfl⟩ : ∃ f, turns = f + 1 := ⟨turns - 1, by omega⟩
  have fits : s.body.length ≤ f := Nat.le_of_lt_succ room
  have faithful := declaration_faithful Grammar.blockLevels
  have does := does_many faithful (does_declaration room Grammar.blockLevels)
    (fun us => does_atEnd) Grammar.passes_isEmpty.stops (List.suffix_refl s.body) fits
  rw [faithful.many_fuel Grammar.passes_isEmpty.stops fits (Nat.le_refl s.body.length)] at does
  have ended : (Grammar.recovered s.body).rest = [] := Grammar.rest_recovered
  have stands : State.start.place = place s s.body := (Nat.sub_self _).symm
  obtain ⟨events, sound, run⟩ := does.run .start stands
  refine ⟨_, run, ?_, rfl, sound⟩
  change place s (Grammar.recovered s.body).rest = _
  rw [ended]
  rfl

end Stream

end Scriptlet.Cursor
