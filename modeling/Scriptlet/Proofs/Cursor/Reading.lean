import Scriptlet.Proofs.Cursor
import Scriptlet.Proofs.Grammar.Completeness

/-! What a reader does at a place is what is done with the tokens from there on. -/
namespace Scriptlet.Cursor

open Scriptlet.Program (isOneOf)

/-- What a reader may do when the input ends at a place: it looks no further, does not look at what
stands in front of the first token, does not step over the end, and gets on with each declaration. -/
def Event.Sound (last : Nat) : Event → Prop
  | .peeked place => place ≤ last
  | .recalled place => 0 < place ∧ place ≤ last
  | .moved place => place ≤ last
  | .attempted start finish => start < finish ∧ finish ≤ last

/-- Runs a reader from a state. -/
def exec (a : Reader α) (m : State) : Except Stop α × State := StateT.run (ExceptT.run a) m

section Equations

variable {m : State}

theorem exec_bind (a : Reader α) (f : α → Reader β) : exec (a >>= f) m =
    match exec a m with
    | (.ok x, m) => exec (f x) m
    | (.error e, m) => (.error e, m) := by
  change StateT.run (ExceptT.run a >>= ExceptT.bindCont f) m = _
  simp only [StateT.run_bind, exec]
  rcases StateT.run (ExceptT.run a) m with ⟨_ | _, _⟩ <;> rfl

theorem exec_tryCatch (a : Reader α) (handle : Stop → Reader α) : exec (tryCatch a handle) m =
    match exec a m with
    | (.ok x, m) => (.ok x, m)
    | (.error e, m) => exec (handle e) m := by
  change StateT.run (ExceptT.tryCatch a handle) m = _
  simp only [ExceptT.tryCatch, ExceptT.mk, StateT.run_bind, exec, ExceptT.run]
  rcases StateT.run a m with ⟨_ | _, _⟩ <;> rfl

end Equations

/-- The place in front of the last of the tokens before the first end of input. -/
def place (s : TokenStream) (rest : List Token) : Nat := s.body.length - rest.length

/-- From the place of some tokens a reader comes to that of others; how it ends, the errors it adds
and the place it comes to do not depend on what was done before. -/
structure Does (s : TokenStream) (a : Reader α) (ts : List Token) (value : Except Stop α)
    (errors : List ParseError) (rest : List Token) : Prop where
  suffix : rest <:+ ts
  run m (stands : m.place = place s ts) : ∃ events, (∀ e ∈ events, e.Sound s.body.length) ∧
    exec a m = (value, ⟨place s rest, m.errors ++ errors, m.journal ++ events⟩)

namespace Does

variable {s : TokenStream} {ts us rest : List Token} {es fs : List ParseError}

theorem pure (x : α) : Does s (pure x : Reader α) ts (.ok x) [] ts := by
  refine ⟨List.suffix_refl ts, fun m stands => ⟨[], nofun, ?_⟩⟩
  rw [← stands, List.append_nil, List.append_nil]
  rfl

theorem throw (stop : Stop) : Does s (throw stop : Reader α) ts (.error stop) [] ts := by
  refine ⟨List.suffix_refl ts, fun m stands => ⟨[], nofun, ?_⟩⟩
  rw [← stands, List.append_nil, List.append_nil]
  rfl

theorem note {event : Event} (sound : event.Sound s.body.length) :
    Does s (note event) ts (.ok ()) [] ts := by
  refine ⟨List.suffix_refl ts, fun m stands => ⟨[event], List.forall_mem_singleton.mpr sound, ?_⟩⟩
  rw [← stands, List.append_nil]
  rfl

theorem bind {a : Reader α} {f : α → Reader β} (first : Does s a ts (.ok x) es us)
    (next : Does s (f x) us v fs rest) : Does s (a >>= f) ts v (es ++ fs) rest := by
  refine ⟨next.suffix.trans first.suffix, fun m stands => ?_⟩
  obtain ⟨events, sound, run⟩ := first.run m stands
  obtain ⟨others, sound', run'⟩ := next.run ⟨place s us, m.errors ++ es, m.journal ++ events⟩ rfl
  refine ⟨events ++ others, List.forall_mem_append.mpr ⟨sound, sound'⟩, ?_⟩
  rw [exec_bind, run]
  simp only [run', List.append_assoc]

theorem bind_error {a : Reader α} {f : α → Reader β} (first : Does s a ts (.error e) es us) :
    Does s (a >>= f) ts (.error e) es us := by
  refine ⟨first.suffix, fun m stands => ?_⟩
  obtain ⟨events, sound, run⟩ := first.run m stands
  exact ⟨events, sound, by rw [exec_bind, run]⟩

theorem discard {a : Reader α} (h : Does s a ts (.ok x) es rest) :
    Does s (discard a) ts (.ok ()) es rest := by
  have same : Functor.discard a = a >>= fun _ => Pure.pure () := map_eq_pure_bind (fun _ => ()) a
  have step := h.bind (f := fun _ => Pure.pure ()) (pure ())
  rw [same, ← List.append_nil es]
  exact step

theorem discard_error {a : Reader α} (h : Does s a ts (.error e) es rest) :
    Does s (Functor.discard a) ts (.error e) es rest := by
  have same : Functor.discard a = a >>= fun _ => Pure.pure () := map_eq_pure_bind (fun _ => ()) a
  rw [same]
  exact h.bind_error

/-- A reader may look at its place. -/
theorem get_place {f : State → Reader α}
    (next : ∀ m, m.place = place s ts → Does s (f m) ts v es rest) :
    Does s (get >>= f) ts v es rest := by
  refine ⟨(next ⟨place s ts, [], []⟩ rfl).suffix, fun m stands => ?_⟩
  exact (next m stands).run m stands

end Does

section Tokens

variable {s : TokenStream} {ts us rest : List Token}

theorem place_le (ts : List Token) : place s ts ≤ s.body.length := Nat.sub_le ..

theorem place_cons (left : t :: ts <:+ s.body) : place s ts = place s (t :: ts) + 1 := by
  have := left.length_le
  simp only [place, List.length_cons] at this ⊢
  omega

theorem getElem?_place (left : ts <:+ s.body) :
    s.toList[place s ts]? = some (ts.headD s.stop) := by
  obtain ⟨front, whole⟩ := left
  have here : place s ts = front.length := by
    rw [place, ← whole, List.length_append]
    omega
  rw [here, TokenStream.toList, ← whole, List.append_assoc, List.getElem?_append_right (Nat.le_refl _),
    Nat.sub_self]
  cases ts <;> rfl

theorem does_tokenAt (left : ts <:+ s.body) :
    Does s (tokenAt s.toList (place s ts)) us (.ok (ts.headD s.stop)) [] us := by
  rw [tokenAt, getElem?_place left]
  exact .pure _

theorem does_peek (left : ts <:+ s.body) :
    Does s (peek s.toList) ts (.ok (ts.headD s.stop)) [] ts := by
  refine Does.get_place fun m stands => ?_
  have sound : (Event.peeked (place s ts)).Sound s.body.length := place_le ts
  rw [stands]
  exact (Does.note sound).bind (does_tokenAt left)

theorem does_previous (left : t :: ts <:+ s.body) :
    Does s (previous s.toList) ts (.ok t) [] ts := by
  refine Does.get_place fun m stands => ?_
  have sound : (Event.recalled (place s ts)).Sound s.body.length := by
    refine ⟨?_, place_le ts⟩
    rw [place_cons left]
    exact Nat.succ_pos _
  rw [stands]
  refine (Does.note sound).bind ?_
  rw [place_cons left]
  exact does_tokenAt left

theorem isEmpty_eq (left : ts <:+ s.body) :
    ts.isEmpty = decide ((ts.headD s.stop).kind = .endOfInput) := by
  cases ts with
  | nil => simp [s.stop_kind]
  | cons t ts => simp [s.open_body t (left.mem List.mem_cons_self)]

theorem does_atEnd (left : ts <:+ s.body) :
    Does s (atEnd s.toList) ts (.ok ts.isEmpty) [] ts := by
  rw [isEmpty_eq left]
  exact (does_peek left).bind (.pure _)

theorem does_step (left : t :: ts <:+ s.body) : Does s step (t :: ts) (.ok ()) [] ts := by
  have sound : (Event.moved (place s ts)).Sound s.body.length := place_le ts
  refine ⟨List.suffix_cons t ts, fun m stands => ⟨[_], List.forall_mem_singleton.mpr sound, ?_⟩⟩
  rw [place_cons left, ← stands, List.append_nil]
  rfl

theorem does_advance (left : t :: ts <:+ s.body) :
    Does s (advance s.toList) (t :: ts) (.ok t) [] ts :=
  (does_atEnd left).bind ((does_step left).bind (does_previous left))

/-- At the end of the input there is still a token to look back at, if there was any before. -/
theorem does_advance_end (some : s.body ≠ []) :
    ∃ t, Does s (advance s.toList) [] (.ok t) [] [] := by
  have last : [s.body.getLast some] <:+ s.body :=
    ⟨s.body.dropLast, List.dropLast_concat_getLast some⟩
  exact ⟨_, (does_atEnd List.nil_suffix).bind (does_previous last)⟩

theorem does_check (left : ts <:+ s.body) (kind : TokenKind) :
    Does s (check s.toList kind) ts (.ok (ts.head?.any (·.kind = kind))) [] ts := by
  refine (does_atEnd left).bind ?_
  cases ts with
  | nil => exact .pure false
  | cons t ts => exact (does_peek left).bind (.pure _)

theorem does_accept {kinds : List TokenKind} (left : t :: ts <:+ s.body) (own : t.kind ∈ kinds) :
    Does s (accept s.toList kinds) (t :: ts) (.ok true) [] ts := by
  induction kinds with
  | nil => cases own
  | cons kind kinds ih =>
    refine (does_check left kind).bind ?_
    by_cases same : t.kind = kind
    · simp only [List.head?_cons, Option.any_some, same, decide_true, if_true]
      exact (does_advance left).discard.bind (.pure true)
    · simp only [List.head?_cons, Option.any_some, same, decide_false, Bool.false_eq_true, if_false]
      exact ih ((List.mem_cons.mp own).resolve_left same)

theorem headless {p : Token → Prop} : ∀ t ∈ ([] : List Token).head?, p t := by
  rintro _ ⟨⟩

theorem does_not_accept {kinds : List TokenKind} (left : ts <:+ s.body)
    (other : ∀ t ∈ ts.head?, t.kind ∉ kinds) :
    Does s (accept s.toList kinds) ts (.ok false) [] ts := by
  induction kinds with
  | nil => exact .pure false
  | cons kind kinds ih =>
    refine (does_check left kind).bind ?_
    have differs : ts.head?.any (·.kind = kind) = false := by
      cases ts with
      | nil => rfl
      | cons t ts =>
        have same : t.kind ≠ kind := fun same => other t rfl (same ▸ List.mem_cons_self)
        simpa using same
    simp only [differs, Bool.false_eq_true, if_false]
    exact ih fun t head mem => other t head (List.mem_cons_of_mem kind mem)

theorem does_take {kinds : List TokenKind} (left : t :: ts <:+ s.body) (own : t.kind ∈ kinds) :
    Does s (take? s.toList kinds) (t :: ts) (.ok (some t)) [] ts :=
  (does_accept left own).bind ((does_previous left).bind (.pure _))

theorem does_not_take {kinds : List TokenKind} (left : ts <:+ s.body)
    (other : ∀ t ∈ ts.head?, t.kind ∉ kinds) :
    Does s (take? s.toList kinds) ts (.ok none) [] ts :=
  (does_not_accept left other).bind (.pure none)

theorem does_fail (left : ts <:+ s.body) (cause : ParseError.Cause) :
    Does s (fail s.toList cause : Reader α) ts
      (.error (.error ((Obstacle.here cause ts).error s.stop))) [] ts :=
  (does_peek left).bind (.throw _)

theorem does_require {kind : TokenKind} (left : t :: ts <:+ s.body) (own : t.kind = kind)
    (cause : ParseError.Cause) : Does s (require s.toList kind cause) (t :: ts) (.ok t) [] ts := by
  refine (does_check left kind).bind ?_
  simp only [List.head?_cons, Option.any_some, own, decide_true, if_true]
  exact does_advance left

theorem does_not_require {kind : TokenKind} (left : ts <:+ s.body)
    (other : ∀ t ∈ ts.head?, t.kind ≠ kind) (cause : ParseError.Cause) :
    Does s (require s.toList kind cause) ts
      (.error (.error ((Obstacle.here cause ts).error s.stop))) [] ts := by
  refine (does_check left kind).bind ?_
  have differs : ts.head?.any (·.kind = kind) = false := by
    cases ts with
    | nil => rfl
    | cons t ts => simpa using other t rfl
  simp only [differs, Bool.false_eq_true, if_false]
  exact does_fail left cause

end Tokens

end Scriptlet.Cursor
