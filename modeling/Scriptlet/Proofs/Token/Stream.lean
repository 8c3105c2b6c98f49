import Scriptlet.Token.Stream

/-! Lists of tokens and the streams read from them. -/
namespace Scriptlet.TokenStream

/-- A stream is read from its tokens if the last of them is an end of input. -/
theorem ofTokens?_of_last {s : TokenStream}
    (last : s.toList.getLast?.any (·.kind = .endOfInput) = true) : ofTokens? s.toList = some s := by
  obtain ⟨body, stop, beyond, opened, ends⟩ := s
  have inner : ∀ t ∈ body, (t.kind != .endOfInput) = true := by
    intro t mem
    simpa using opened t mem
  have front : (body ++ stop :: beyond).takeWhile (·.kind != .endOfInput) = body := by
    simp [List.takeWhile_append_of_pos inner, ends]
  have back : (body ++ stop :: beyond).dropWhile (·.kind != .endOfInput) = stop :: beyond := by
    simp [List.dropWhile_append_of_pos inner, ends]
  unfold ofTokens?
  rw [if_pos last]
  unfold toList
  split
  next stop' beyond' split =>
    rw [back] at split
    cases split
    simp only [front]
  next split =>
    rw [back] at split
    cases split

theorem ofTokens?_toList {s : TokenStream} (whole : s.isWhole = true) :
    ofTokens? s.toList = some s := by
  apply ofTokens?_of_last
  obtain ⟨body, stop, beyond, opened, ends⟩ := s
  obtain rfl : beyond = [] := List.isEmpty_iff.mp whole
  simp [toList, ends]

theorem last_of_ofTokens? {tokens : List Token} {s : TokenStream}
    (given : ofTokens? tokens = some s) :
    tokens.getLast?.any (·.kind = .endOfInput) = true := by
  unfold ofTokens? at given
  split at given
  next last => exact last
  next => cases given

/-- Nothing stands behind the first end of input if it is the last token. -/
theorem isWhole_iff {front : List Token} {stop : Token} {s : TokenStream}
    (given : ofTokens? (front ++ [stop]) = some s) :
    s.isWhole = true ↔ ∀ t ∈ front, t.kind ≠ .endOfInput := by
  have whole := toList_of_ofTokens? given
  rw [isWhole, List.isEmpty_iff]
  constructor
  · intro nothing
    rw [toList, nothing] at whole
    exact (List.append_inj' whole rfl).1 ▸ s.open_body
  · intro opened
    rcases List.eq_nil_or_concat s.beyond with nothing | ⟨others, last, more⟩
    · exact nothing
    · rw [toList, more, List.concat_eq_append, ← List.cons_append, ← List.append_assoc] at whole
      have inside : s.stop ∈ front := (List.append_inj' whole rfl).1 ▸ by simp
      exact absurd s.stop_kind (opened s.stop inside)

theorem length_body_iff (s : TokenStream) :
    s.body.length = s.toList.length - 1 ↔ s.isWhole = true := by
  rw [isWhole, List.isEmpty_iff, ← List.length_eq_zero_iff, toList, List.length_append,
    List.length_cons]
  omega

/-- More tokens in front, with no end of input among them, come to stand in front of the body. -/
def prepend (front : List Token) (opened : ∀ t ∈ front, t.kind ≠ .endOfInput) (s : TokenStream) :
    TokenStream :=
  { s with
    body := front ++ s.body
    open_body := List.forall_mem_append.mpr ⟨opened, s.open_body⟩ }

theorem ofTokens?_append {front tokens : List Token} {s : TokenStream}
    (opened : ∀ t ∈ front, t.kind ≠ .endOfInput) (given : ofTokens? tokens = some s) :
    ofTokens? (front ++ tokens) = some (s.prepend front opened) := by
  have whole : (s.prepend front opened).toList = front ++ tokens := by
    rw [← toList_of_ofTokens? given, toList, toList, ← List.append_assoc]
    rfl
  have last : (front ++ tokens).getLast?.any (·.kind = .endOfInput) = true := by
    have last := last_of_ofTokens? given
    rw [List.getLast?_append]
    cases found : tokens.getLast? with
    | none =>
      rw [found] at last
      cases last
    | some t =>
      rw [found] at last
      exact last
  rw [← whole] at last ⊢
  exact ofTokens?_of_last last

end Scriptlet.TokenStream
