import Scriptlet.Proofs.Grammar.Recognition

/-! The expression at the head of a text. At most one is not extended by what follows it; no other
reaches as far, and it is the one that is read. -/
namespace Scriptlet.Grammar

/-- A text is a phrase and a rest that does not extend it in one way only. -/
theorem Derives.unique_prefix (first : Derives c us m) (second : Derives c vs n)
    (whole : us ++ rest = vs ++ rest') (ends : c.Ends rest) (ends' : c.Ends rest') :
    us = vs ∧ m = n ∧ rest = rest' := by
  obtain ⟨j, first⟩ := first.reads
  obtain ⟨k, second⟩ := second.reads
  have read := first.enough (Nat.le_max_left j k) ends
  rw [whole, second.enough (Nat.le_max_right j k) ends'] at read
  cases read
  exact ⟨List.append_cancel_right whole, rfl, rfl⟩

/-- No text has two derivations. -/
theorem Derives.unique (first : Derives c ts m) (second : Derives c ts n) : m = n := by
  have none : c.Ends [] := nofun
  obtain ⟨_, same, _⟩ := first.unique_prefix second rfl none none
  exact same

/-- A phrase that nothing extends is no shorter than another one at the head of the same text. -/
theorem Derives.longest (first : Derives c us m) (second : Derives c vs n)
    (whole : us ++ rest = vs ++ rest') (ends : c.Ends rest) : vs.length ≤ us.length := by
  by_contra shorter
  obtain ⟨mid, rfl⟩ : us <+: vs := by
    refine List.prefix_of_prefix_length_le (List.prefix_append us rest) ?_ (by omega)
    rw [whole]
    exact List.prefix_append vs rest'
  -- What the longer phrase has more does not extend the shorter one, so it is nothing.
  have inner : c.Ends mid := by
    rw [List.append_assoc] at whole
    obtain rfl := List.append_cancel_left whole
    intro t head
    cases mid with
    | nil => cases head
    | cons t' mid => exact ends t head
  have same := (first.unique_prefix second (List.append_nil _).symm inner nofun).2.2
  simp [same] at shorter

theorem mem_extenders_expression : s ∈ Category.expression.extenders ↔
    s = .equal ∨ ∃ level : Level, s ∈ level.operators := by
  constructor
  · intro mem
    rcases List.mem_cons.mp mem with rfl | mem
    · exact .inl rfl
    simp only [Level.within, List.mem_append] at mem
    rcases mem with own | own | own | own <;> exact .inr ⟨_, own⟩
  · rintro (rfl | ⟨level, own⟩)
    · decide
    · cases level <;> revert own <;> cases s <;> decide

/-- The first `k` tokens of a list make up an expression, and the next one is no sign with which the
expression could go on. -/
structure Leads (tokens : List Token) (n : Node) (k : Nat) : Prop where
  opened : ∀ t ∈ tokens.take k, t.kind ≠ .endOfInput
  derived : Derives .expression (tokens.take k) n
  unextended : ∀ t ∈ tokens[k]?, t.kind ≠ .symbol .equal ∧
    ∀ level : Level, ∀ s ∈ level.operators, t.kind ≠ .symbol s

theorem ends_expression_iff : Category.expression.Ends rest ↔ ∀ t ∈ rest.head?,
    t.kind ≠ .symbol .equal ∧ ∀ level : Level, ∀ s ∈ level.operators, t.kind ≠ .symbol s := by
  constructor
  · intro ends t head
    have other : ∀ s ∈ Category.expression.extenders, t.kind ≠ .symbol s := by
      intro s own kind
      rw [Category.Ends] at ends
      have := ends t head
      rw [isOneOf_of_kind kind, decide_eq_false_iff_not] at this
      exact this own
    exact ⟨other .equal (by decide), fun level s own =>
      other s (mem_extenders_expression.mpr (.inr ⟨level, own⟩))⟩
  · intro plain t head
    apply isOneOf_eq_false
    intro s own
    rcases mem_extenders_expression.mp own with rfl | ⟨level, own⟩
    · exact (plain t head).1
    · exact (plain t head).2 level s own

theorem Leads.ends (h : Leads tokens n k) : Category.expression.Ends (tokens.drop k) := by
  rw [ends_expression_iff, List.head?_drop]
  exact h.unextended

section Stream

variable {s : TokenStream}

/-- What is opened by no end of input lies in front of the first one. -/
theorem take_toList (opened : ∀ t ∈ s.toList.take k, t.kind ≠ .endOfInput) :
    k ≤ s.body.length ∧ s.toList.take k = s.body.take k := by
  have within : k ≤ s.body.length := by
    by_contra past
    refine opened s.stop ?_ s.stop_kind
    obtain ⟨j, rfl⟩ : ∃ j, k = s.body.length + (j + 1) := ⟨k - s.body.length - 1, by omega⟩
    rw [TokenStream.toList, List.take_length_add_append, List.take_succ_cons]
    simp
  rw [TokenStream.toList, List.take_append_of_le_length within]
  exact ⟨within, rfl⟩

/-- The end of input does not extend an expression, so it makes no difference to what does. -/
theorem ends_drop_toList (within : k ≤ s.body.length) :
    Category.expression.Ends (s.toList.drop k) ↔ Category.expression.Ends (s.body.drop k) := by
  rw [TokenStream.toList, List.drop_append_of_le_length within]
  cases s.body.drop k with
  | nil =>
    refine iff_of_true ?_ ?_ <;> rw [ends_expression_iff] <;> rintro t ⟨⟩
    simp [s.stop_kind]
  | cons t ts => rfl

/-- Nothing but the end of input is left exactly if the place reached is the last one. -/
theorem isWhole_eq (left : rest <:+ s.body) : (rest.isEmpty && s.isWhole) =
    decide (s.body.length - rest.length + 1 = s.toList.length) := by
  have within := left.length_le
  rw [Bool.eq_iff_iff, Bool.and_eq_true, TokenStream.isWhole, decide_eq_true_eq,
    List.isEmpty_iff_length_eq_zero, List.isEmpty_iff_length_eq_zero, TokenStream.toList,
    List.length_append, List.length_cons]
  omega

theorem leads_of_read (read : Category.expression.read d s.body = .ok (n, rest)) :
    Leads s.toList n (s.body.length - rest.length) := by
  obtain ⟨us, whole, derived, ends⟩ := read_derives d read
  have place : s.body.length - rest.length = us.length := by
    rw [whole, List.length_append]
    omega
  have within : us.length ≤ s.body.length := by omega
  have front : s.toList.take us.length = us := by
    rw [TokenStream.toList, List.take_append_of_le_length within, whole, List.take_left]
  rw [place]
  refine ⟨?opened, front.symm ▸ derived, ?unextended⟩
  case opened =>
    intro t mem
    rw [front] at mem
    exact s.open_body t (whole ▸ List.mem_append_left rest mem)
  case unextended =>
    rw [← List.head?_drop, ← ends_expression_iff, ends_drop_toList within, whole, List.drop_left]
    exact ends

/-- Unless depth stands in the way, what leads the tokens is read. -/
theorem read_of_leads (leads : Leads s.toList n k) :
    Category.expression.read d s.body = .ok (n, s.body.drop k) ∨
      Short (Category.expression.read d s.body) := by
  obtain ⟨within, front⟩ := take_toList leads.opened
  have derived := leads.derived
  rw [front] at derived
  obtain ⟨j, reads⟩ := derived.reads
  have ends := (ends_drop_toList within).mp leads.ends
  by_cases le : j ≤ d
  · have read := reads.enough le ends
    rw [List.take_append_drop] at read
    exact .inl read
  · have short := reads.short (Nat.lt_of_not_le le) ends
    rw [List.take_append_drop] at short
    exact .inr short

/-- If depth does not stand in the way, an expression is read exactly if it leads the tokens. -/
theorem ofStream_eq_ok_iff
    (shallow : ∀ e, LeadingExpression.ofStream s = .error e → e.cause ≠ .tooDeep) :
    LeadingExpression.ofStream s = .ok ⟨n, k, k + 1 = s.toList.length⟩ ↔ Leads s.toList n k := by
  constructor
  · intro made
    unfold LeadingExpression.ofStream at made
    split at made
    next tree rest read =>
      obtain ⟨rfl, rfl, _⟩ := LeadingExpression.mk.inj (Except.ok.inj made)
      exact leads_of_read (d := nestingLimit) read
    · cases made
  · intro leads
    obtain ⟨within, _⟩ := take_toList leads.opened
    rcases read_of_leads (d := nestingLimit) leads with read | ⟨o, failed, deep⟩
    · have read : Program.expression nestingLimit s.body = .ok (n, s.body.drop k) := read
      have place : s.body.length - (s.body.drop k).length = k := by
        rw [List.length_drop]
        omega
      simp only [LeadingExpression.ofStream, read, isWhole_eq (List.drop_suffix k s.body), place]
    · have failed : Program.expression nestingLimit s.body = .error o := failed
      have made : LeadingExpression.ofStream s = .error (o.error s.stop) := by
        simp only [LeadingExpression.ofStream, failed]
      exact absurd deep (shallow _ made)

/-- If an expression leads the tokens, no other one does, and none at all reaches further. -/
theorem Leads.unique (first : Leads s.toList m j) (second : Leads s.toList n k) : m = n ∧ j = k := by
  obtain ⟨within, _⟩ := take_toList first.opened
  obtain ⟨within', _⟩ := take_toList second.opened
  have whole : s.toList.take j ++ s.toList.drop j = s.toList.take k ++ s.toList.drop k := by
    rw [List.take_append_drop, List.take_append_drop]
  obtain ⟨same, trees, _⟩ := first.derived.unique_prefix second.derived whole first.ends second.ends
  have lengths := congrArg List.length same
  rw [List.length_take, List.length_take, TokenStream.toList, List.length_append] at lengths
  exact ⟨trees, by omega⟩

theorem Leads.longest (leads : Leads s.toList n k) (derived : Derives .expression (s.toList.take j) m)
    (opened : ∀ t ∈ s.toList.take j, t.kind ≠ .endOfInput) : j ≤ k := by
  obtain ⟨within, _⟩ := take_toList leads.opened
  obtain ⟨within', _⟩ := take_toList opened
  have whole : s.toList.take k ++ s.toList.drop k = s.toList.take j ++ s.toList.drop j := by
    rw [List.take_append_drop, List.take_append_drop]
  have lengths := leads.derived.longest derived whole leads.ends
  rw [List.length_take, List.length_take, TokenStream.toList, List.length_append] at lengths
  omega

end Stream

/-- Every list of tokens that closes with an end of input is read; if no limit on depth is met, the
expression read is the one that leads the list, and reading fails if none does. There is at most one
such expression, as no text has two derivations, and it is the longest at the head of the list. -/
theorem leading_iff_leads (front : List Token) (stop : Token) (ends : stop.kind = .endOfInput) :
    ∃ s, TokenStream.ofTokens? (front ++ [stop]) = some s ∧
      ((∀ e, LeadingExpression.ofStream s = .error e → e.cause ≠ .tooDeep) →
        (∀ n k, LeadingExpression.ofStream s = .ok ⟨n, k, k + 1 = (front ++ [stop]).length⟩ ↔
          Leads (front ++ [stop]) n k) ∧
        ((∃ e, LeadingExpression.ofStream s = .error e) ↔
          ¬ ∃ n k, Leads (front ++ [stop]) n k)) ∧
      (∀ m n j k, Leads (front ++ [stop]) m j → Leads (front ++ [stop]) n k → m = n ∧ j = k) ∧
      (∀ n k, Leads (front ++ [stop]) n k → ∀ m j,
        (∀ t ∈ (front ++ [stop]).take j, t.kind ≠ .endOfInput) →
          Derives .expression ((front ++ [stop]).take j) m → j ≤ k) ∧
      ∀ ts m n, Derives .expression ts m → Derives .expression ts n → m = n := by
  obtain ⟨s, given, _⟩ := @ofTokens?_of_ends front stop ends
  have whole := TokenStream.toList_of_ofTokens? given
  refine ⟨s, given, ?_⟩
  rw [← whole]
  refine ⟨fun shallow => ⟨fun n k => ofStream_eq_ok_iff shallow, ?_⟩, fun m n j k => Leads.unique,
    fun n k leads m j opened derived => leads.longest derived opened, fun ts m n => Derives.unique⟩
  constructor
  · rintro ⟨e, failed⟩ ⟨n, k, leads⟩
    have read := (ofStream_eq_ok_iff shallow).mpr leads
    cases failed.symm.trans read
  · intro none
    cases made : LeadingExpression.ofStream s with
    | error e => exact ⟨e, rfl⟩
    | ok leading =>
      refine absurd ?_ none
      unfold LeadingExpression.ofStream at made
      split at made
      next tree rest read => exact ⟨tree, _, leads_of_read (d := nestingLimit) read⟩
      · cases made

/-- The tokens of `a = - b * 2 ) c`, the first six of which are an expression. -/
def trailing : List Token :=
  [⟨.identifier, "a", 1⟩, ⟨.symbol .equal, "=", 1⟩, ⟨.symbol .minus, "-", 1⟩, ⟨.identifier, "b", 1⟩,
    ⟨.symbol .star, "*", 1⟩, ⟨.number, "2", 1⟩, ⟨.symbol .rightParen, ")", 1⟩, ⟨.identifier, "c", 1⟩]

theorem trailing_leads : Leads (trailing ++ [⟨.endOfInput, "", 1⟩])
    (.assign ⟨.identifier, "a", 1⟩ (.binary
      (.unary ⟨.symbol .minus, "-", 1⟩ (.reference ⟨.identifier, "b", 1⟩))
      ⟨.symbol .star, "*", 1⟩ (.literal ⟨.number, "2", 1⟩))) 6 := by
  obtain ⟨s, given, read, _⟩ := leading_iff_leads trailing ⟨.endOfInput, "", 1⟩ rfl
  cases given
  refine ((read ?_).1 _ _).mp rfl
  rintro e ⟨⟩

end Scriptlet.Grammar
