import Scriptlet.Json.Reader
import Scriptlet.Json.Writer
import Scriptlet.Proofs.Token.Numeral

/-! The words of JSON text: a string or a whole number that was written is read back, whatever
follows a string and whatever follows a number that could not be part of it. -/
namespace Scriptlet.Json

namespace Reader

section Strings

variable {fuel : Nat} {read cs : List Char}

theorem hexValue?_digitChar : ∀ d < 16, hexValue? (Nat.digitChar d) = some d := by decide

theorem unit?_hex {n : Nat} (small : n < 0x10000) : unit? (Text.hex 4 n ++ cs) = some (n, cs) := by
  have digit : ∀ m, hexValue? (Nat.digitChar (m % 16)) = some (m % 16) :=
    fun m => hexValue?_digitChar _ (Nat.mod_lt m (by decide))
  have value : (((n / 16 / 16 / 16 % 16) * 16 + n / 16 / 16 % 16) * 16 + n / 16 % 16) * 16 + n % 16 =
      n := by omega
  simp only [Text.hex, List.nil_append, List.cons_append, unit?, digit, Option.bind_eq_bind,
    Option.bind_some, value]
  rfl

/-- A character below the surrogates. -/
theorem character?_hex {n : Nat} (small : n < 0xD800) :
    character? (Text.hex 4 n ++ cs) = some (Char.ofNat n, cs) := by
  rw [character?, unit?_hex (by omega), Option.bind_eq_bind, Option.bind_some]
  simp only [small, decide_true, Bool.true_or, if_true]
  rfl

theorem string_escapedChar (c : Char) : string (fuel + 1) read (escapedChar c ++ cs) =
    string fuel (c :: read) cs := by
  unfold escapedChar
  split
  next h => subst h; rfl
  split
  next h => subst h; rfl
  split
  next h => subst h; rfl
  split
  next h => subst h; rfl
  split
  next h => subst h; rfl
  split
  next h => subst h; rfl
  split
  next h => subst h; rfl
  split
  next small =>
    have escaped : escape? ('u' :: (Text.hex 4 c.toNat ++ cs)) = some (c, cs) := by
      rw [escape?, character?_hex (by omega), Char.ofNat_toNat]
    change string (fuel + 1) read ('\\' :: 'u' :: (Text.hex 4 c.toNat ++ cs)) = _
    rw [string, escaped]
  next quote backslash _ _ _ _ _ large =>
    rw [List.singleton_append, string.eq_def]
    split
    · contradiction
    next same =>
      cases same
      split
      next same => cases same; exact absurd rfl quote
      next same => cases same; exact absurd rfl backslash
      next same => cases same; rw [if_neg large]
      next same => cases same

/-- A string is read to the quote that closes it. -/
theorem string_written (s : List Char) (enough : s.length < fuel) :
    string fuel read (s.flatMap escapedChar ++ '"' :: cs) =
      .ok (String.ofList (read.reverse ++ s), cs) := by
  induction s generalizing fuel read with
  | nil =>
    obtain ⟨fuel, rfl⟩ := Nat.exists_eq_succ_of_ne_zero (Nat.ne_of_gt enough)
    simp [string]
  | cons c s ih =>
    obtain ⟨fuel, rfl⟩ := Nat.exists_eq_succ_of_ne_zero (Nat.ne_of_gt (Nat.zero_lt_of_lt enough))
    rw [List.flatMap_cons, List.append_assoc, string_escapedChar,
      ih (Nat.lt_of_succ_lt_succ enough), List.reverse_cons, List.append_assoc, List.singleton_append]

theorem length_le_flatMap_escapedChar (s : List Char) :
    s.length ≤ (s.flatMap escapedChar).length := by
  have filled : ∀ c, 1 ≤ (escapedChar c).length := by
    intro c
    unfold escapedChar
    repeat' split
    all_goals simp
  induction s with
  | nil => exact Nat.zero_le 0
  | cons c s ih =>
    have := filled c
    rw [List.flatMap_cons, List.length_append, List.length_cons]
    omega

/-- What `value` and `fields` do behind an opening quote. -/
theorem string_writtenString (s : String) (rest : List Char) :
    ∃ cs, writtenString s ++ rest = '"' :: cs ∧ string (cs.length + 1) [] cs = .ok (s, rest) := by
  refine ⟨s.toList.flatMap escapedChar ++ '"' :: rest, ?_, ?_⟩
  · simp [writtenString]
  · have short := length_le_flatMap_escapedChar s.toList
    rw [string_written s.toList (by rw [List.length_append]; omega)]
    simp

end Strings

section Numbers

/-- What cannot go on with a number. -/
def EndsNumber (rest : List Char) : Prop :=
  ∀ c ∈ rest.head?, c.isDigit = false ∧ c ≠ '.' ∧ c ≠ 'e' ∧ c ≠ 'E'

variable {rest : List Char}

theorem toDigits_first (n : Nat) : ∃ c cs, Nat.toDigits 10 n = c :: cs ∧ c.isDigit = true := by
  rcases digits : Nat.toDigits 10 n with _ | ⟨c, cs⟩
  · exact absurd digits Nat.toDigits_ne_nil
  · exact ⟨c, cs, rfl,
      Nat.isDigit_of_mem_toDigits (by decide) (by decide) (digits ▸ List.mem_cons_self)⟩

/-- A whole number is written as its digits, behind a minus sign if it is negative. -/
theorem toList_toString (n : Int) : ∃ m : Nat,
    (n = m ∧ (toString n).toList = Nat.toDigits 10 m) ∨
      (n = -m ∧ (toString n).toList = '-' :: Nat.toDigits 10 m) := by
  cases n with
  | ofNat n => exact ⟨n, .inl ⟨rfl, Nat.toList_repr⟩⟩
  | negSucc n => exact ⟨n + 1, .inr ⟨rfl, by simp [Int.repr]⟩⟩

end Numbers

end Reader

end Scriptlet.Json
