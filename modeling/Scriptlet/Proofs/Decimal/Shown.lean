import Scriptlet.Program
import Scriptlet.Proofs.Decimal.Bits
import Scriptlet.Proofs.Decimal.Significant
import Scriptlet.Proofs.Run.Steps

/-! Numbers as they are shown. The text of a finite number is the positional form of its decimal,
behind a minus sign if it is negative; as a script it is one number, or one behind a minus sign, and
its value is the number shown. -/
namespace Scriptlet

namespace Binary64

open Decimal (Spells)
open Numeral (plain)

variable {x : Float}

/-- Both texts of a finite number are forms of one decimal, which rounds to it. What the longer one
spells has the shorter one for its positional form, but for a zero behind the point. -/
theorem exists_decimal (finite : magnitude x < infinite) : ∃ d d' : Decimal,
    shown x = String.ofList (signed x d.positional) ∧
    literal x = String.ofList (signed x d.general) ∧ Numeral.decimal? d.general = some d' ∧
    d.positional = Decimal.withoutZero d'.positional ∧ d.nearest = magnitude x := by
  have regular : ¬ infinite < magnitude x := Nat.lt_asymm finite
  have bounded : magnitude x ≠ infinite := Nat.ne_of_lt finite
  by_cases zero : magnitude x = 0
  · refine ⟨⟨0, 0⟩, ⟨0, -1⟩, ?_, ?_, rfl, rfl, (Decimal.nearest_zero 0).trans zero.symm⟩
    · simp only [shown, zero, if_true]
      rfl
    · simp only [literal, zero, if_true]
      rfl
  · have rounds := Decimal.nearest_shortest finite
    obtain ⟨d', spelt, _⟩ := (Decimal.shortest (magnitude x)).general_spells
    refine ⟨Decimal.shortest (magnitude x), d', ?_, ?_, spelt, ?_, rounds⟩
    · simp only [shown, regular, bounded, zero, if_false]
    · simp only [literal, regular, bounded, zero, if_false]
    · exact (Decimal.withoutZero_general (Decimal.tenth_shortest zero finite)
        (fun none => absurd none (Decimal.shortest_ne_zero zero finite)) spelt).symm

section Signed

variable {first : Char} {others : List Char} (digit : first.isDigit = true)
include digit

theorem sign_signed (x : Float) :
    Numeral.sign (signed x (first :: others)) = (isNegative x, first :: others) := by
  unfold signed
  cases isNegative x with
  | true => rfl
  | false => exact Numeral.sign_of_digit digit

theorem value?_signed (spelt : Spells (first :: others) q) :
    Numeral.value? (signed x (first :: others)) = some (if isNegative x then -q else q) := by
  obtain ⟨d, read, rfl⟩ := spelt
  simp only [Numeral.value?, sign_signed digit, read, Option.map_some]

/-- A number is read back from a text of its sign and its magnitude. -/
theorem readNumber?_signed (finite : magnitude x < infinite)
    (simple : (first :: others).all plain = true)
    (read : Numeral.magnitude? (first :: others) = some (magnitude x)) :
    readNumber? (String.ofList (signed x (first :: others))) = some x := by
  have simple : (signed x (first :: others)).all plain = true := by
    unfold signed
    split
    · rw [List.all_cons, simple]
      rfl
    · exact simple
  rw [readNumber?, String.toList_ofList, Numeral.ofChars?_of_plain simple (sign_signed digit x) digit,
    read, Option.map_some, ofMagnitude_magnitude finite]

end Signed

end Binary64

section Evaluation

/-- The action gives the value and does nothing but trace. -/
def Action.Gives (a : Action α) (y : α) : Prop :=
  ∀ m, ∃ events, a.exec m = (.ok y, { m with trace := m.trace ++ events })

namespace Action.Gives

theorem pure (y : α) : Gives (pure y) y := by
  intro m
  refine ⟨[], ?_⟩
  rw [exec_pure, List.append_nil]

theorem bind {a : Action α} {f : α → Action β} (first : Gives a x) (next : Gives (f x) y) :
    Gives (a >>= f) y := by
  intro m
  obtain ⟨events, ran⟩ := first m
  obtain ⟨later, ended⟩ := next { m with trace := m.trace ++ events }
  refine ⟨events ++ later, ?_⟩
  rw [exec_bind, ran]
  simp only [ended, List.append_assoc]

theorem liftM (y : α) : Gives (liftM (.ok y : Except Fault α)) y := by
  intro m
  refine ⟨[], ?_⟩
  rw [exec_liftM, List.append_nil]

theorem record (level : Nat) (event : TraceEvent) : Gives (record level event) () := by
  intro m
  rw [exec_record]
  split
  · exact ⟨[event], rfl⟩
  · exact ⟨[], by rw [List.append_nil]⟩

theorem traceValue {n : Node} (level : Nat) (value : Value) (renders : n.render budget = .ok text) :
    Gives (traceValue level budget n value) value := by
  unfold Action.traceValue
  split
  · refine bind (x := text) ?_ (bind (record level _) (pure value))
    rw [shown, renders]
    exact pure text
  · exact pure value

end Action.Gives

open Action.Gives

theorem gives_number (read : readNumber? lexeme = some y) (level b : Nat) :
    Action.Gives ((Node.literal ⟨.number, lexeme, line⟩).evaluate level (b + 2)) (.number y) := by
  have value : Token.value ⟨.number, lexeme, line⟩ = .ok (.number y) := by
    simp only [Token.value, read]
  rw [Node.evaluate_eq, if_neg (Nat.succ_ne_zero _), Node.result, value]
  exact bind (liftM _) (traceValue level _ rfl)

theorem gives_minus_number (read : readNumber? lexeme = some y) (level b : Nat) :
    Action.Gives ((Node.unary ⟨.symbol .minus, "-", line⟩
      (.literal ⟨.number, lexeme, line⟩)).evaluate level (b + 5)) (.number (-y)) := by
  rw [Node.evaluate_eq, if_neg (Nat.succ_ne_zero _)]
  exact bind (bind (gives_number read level b) (pure _)) (traceValue level _ rfl)

end Evaluation

/-- The whole text is an expression of this value, wherever it is evaluated. -/
def Expresses (text : String) (value : Value) : Prop :=
  Source.strays text = [] ∧
    ∃ tree position, LeadingExpression.ofStream (Source.stream text) = .ok ⟨tree, position, true⟩ ∧
      ∀ level scopes, ∃ trace,
        (tree.evaluate level nestingLimit).on scopes = (.ok value, ⟨scopes, "", trace⟩)

theorem Expresses.of_tokens {text : String} (cut : Source.tokens text = ts)
    (loud : ∀ t ∈ ts, t.kind ≠ .blank ∧ t.kind ≠ .invalid)
    (read : Program.expression nestingLimit ts = .ok (tree, []))
    (gives : ∀ level, Action.Gives (tree.evaluate level nestingLimit) v) : Expresses text v := by
  have body : (Source.stream text).body = ts := by
    change (Source.tokens text).filter _ = ts
    rw [cut, List.filter_eq_self]
    intro t mem
    simp [loud t mem]
  refine ⟨?_, tree, ts.length, ?_, fun level scopes => ?_⟩
  · rw [Source.strays, cut, List.filter_eq_nil_iff]
    intro t mem
    simp [loud t mem]
  · rw [LeadingExpression.ofStream, body, read]
    rfl
  · obtain ⟨events, ended⟩ := gives level (.start scopes)
    exact ⟨_, ended⟩

section Expressing

variable {first : Char} {others : List Char} (number : IsNumber first others)
include number

theorem expresses_number (read : readNumber? (String.ofList (first :: others)) = some y) :
    Expresses (String.ofList (first :: others)) (.number y) := by
  refine .of_tokens (Source.tokens_number number) (by simp) rfl fun level => ?_
  exact gives_number read level 998

theorem expresses_minus_number (read : readNumber? (String.ofList (first :: others)) = some y) :
    Expresses (String.ofList ('-' :: first :: others)) (.number (-y)) := by
  refine .of_tokens (Source.tokens_minus_number number) (by simp) rfl fun level => ?_
  exact gives_minus_number read level 995

end Expressing

namespace Binary64

variable {x : Float}

theorem expresses_signed {first : Char} {others : List Char} (number : IsNumber first others)
    (finite : magnitude x < infinite)
    (read : Numeral.magnitude? (first :: others) = some (magnitude x)) :
    Expresses (String.ofList (signed x (first :: others))) (.number x) := by
  have positive : readNumber? (String.ofList (first :: others)) =
      some (ofMagnitude false (magnitude x)) := by
    rw [readNumber?, String.toList_ofList, Numeral.ofChars?_of_plain (Numeral.plain_of_isNumber number)
      (Numeral.sign_of_digit number.1) number.1, read, Option.map_some]
  have whole := ofMagnitude_magnitude finite
  unfold signed
  cases negative : isNegative x with
  | false =>
    rw [negative] at whole
    exact whole ▸ expresses_number number positive
  | true =>
    rw [negative, ← neg_ofMagnitude finite] at whole
    exact whole ▸ expresses_minus_number number positive

theorem no_exponent_signed {first : Char} {others : List Char} (number : IsNumber first others) :
    ∀ c ∈ signed x (first :: others), c ≠ 'e' ∧ c ≠ 'E' := by
  intro c mem
  have own : c ∈ '-' :: first :: others := by
    unfold signed at mem
    split at mem
    · exact mem
    · exact List.mem_cons_of_mem _ mem
  rcases List.mem_cons.mp own with rfl | mem
  · decide
  · have known := Numeral.digit_or_point number mem
    constructor <;> rintro rfl <;> exact absurd known (by decide)

/-- A finite number is read back from its literal form, a numeral. The text shown for it is what the
same decimal is in positional form, without a zero behind the point. It has the same value and no
exponent; behind its sign it is one token, a number; and as an expression it has the number itself
for its value, down to the bits. -/
theorem shown_reads_back (finite : x.isFinite = true) :
    readNumber? (literal x) = some x ∧
    (∃ body d, literal x = String.ofList (signed x body) ∧ Numeral.decimal? body = some d ∧
      shown x = String.ofList (signed x (Decimal.withoutZero d.positional))) ∧
    (∃ q, Numeral.value? (literal x).toList = some q ∧ Numeral.value? (shown x).toList = some q) ∧
    (∀ c ∈ (shown x).toList, c ≠ 'e' ∧ c ≠ 'E') ∧
    (∃ first others, shown x = String.ofList (signed x (first :: others)) ∧ IsNumber first others ∧
      Source.tokens (String.ofList (first :: others)) =
        [⟨.number, String.ofList (first :: others), 1⟩]) ∧
    Expresses (shown x) (.number x) := by
  have finite := magnitude_lt_infinite finite
  obtain ⟨d, d', positional, general, spelt, dropped, rounds⟩ := exists_decimal finite
  obtain ⟨first, others, split, number⟩ := d.positional_isNumber
  obtain ⟨first', others', split', digit', simple'⟩ := d.general_starts
  have read := d.positional_spells.magnitude?
  have read' := d.general_spells.magnitude?
  have value := d.positional_spells
  have value' := d.general_spells
  rw [split, rounds] at read
  rw [split', rounds] at read'
  rw [split] at value
  rw [split'] at value'
  refine ⟨?_, ⟨d.general, d', general, spelt, dropped ▸ positional⟩,
    ⟨if isNegative x then -d.value else d.value, ?_, ?_⟩, ?_,
    ⟨first, others, split ▸ positional, number, Source.tokens_number number⟩, ?_⟩
  · rw [general, split']
    exact readNumber?_signed digit' finite simple' read'
  · rw [general, String.toList_ofList, split']
    exact value?_signed digit' value'
  · rw [positional, String.toList_ofList, split]
    exact value?_signed number.1 value
  · rw [positional, String.toList_ofList, split]
    exact no_exponent_signed number
  · rw [positional, split]
    exact expresses_signed number finite read

/-- The greatest negative number. -/
theorem greatest_negative_reads_back : (ofMagnitude true 1).isFinite = true ∧
    Expresses (shown (ofMagnitude true 1)) (.number (ofMagnitude true 1)) := by
  have finite : (ofMagnitude true 1).isFinite = true := rfl
  exact ⟨finite, (shown_reads_back finite).2.2.2.2.2⟩

/-- The sign of a zero is shown. -/
example : shown (ofMagnitude true 0) = "-0" := rfl

end Binary64

end Scriptlet
