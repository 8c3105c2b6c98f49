/-! Association lists with one entry for each key, in the order in which the keys were first given a
value. They are looked up with `List.lookup`. -/
namespace Scriptlet.Assoc

/-- Gives a key a value. A key that is there already keeps its place. -/
def insert (pairs : List (String × α)) (key : String) (value : α) : List (String × α) :=
  match pairs with
  | [] => [(key, value)]
  | (k, v) :: others =>
    if k = key then (k, value) :: others else (k, v) :: insert others key value

def keys (pairs : List (String × α)) : List String := pairs.map (·.1)

theorem lookup_insert_self (pairs : List (String × α)) (key : String) (value : α) :
    (insert pairs key value).lookup key = some value := by
  induction pairs with
  | nil => simp [insert]
  | cons pair others ih =>
    obtain ⟨k, v⟩ := pair
    unfold insert
    split
    next h => simp [h]
    next h =>
      have : (key == k) = false := by simpa using fun e : key = k => h e.symm
      simpa [List.lookup_cons, this] using ih

theorem lookup_insert_of_ne (pairs : List (String × α)) {key other : String} (value : α)
    (ne : other ≠ key) : (insert pairs key value).lookup other = pairs.lookup other := by
  induction pairs with
  | nil => simp [insert, ne]
  | cons pair others ih =>
    obtain ⟨k, v⟩ := pair
    unfold insert
    split
    next h =>
      have : (other == k) = false := by simpa [h] using ne
      simp [List.lookup_cons, this]
    next => simp [List.lookup_cons, ih]

/-- A key keeps its entry, or is added behind all others. -/
theorem keys_insert (pairs : List (String × α)) (key : String) (value : α) :
    keys (insert pairs key value) =
      if key ∈ keys pairs then keys pairs else keys pairs ++ [key] := by
  induction pairs with
  | nil => simp [insert, keys]
  | cons pair others ih =>
    obtain ⟨k, v⟩ := pair
    unfold insert
    split
    next h => simp [keys, h]
    next h =>
      have ne : ¬ key = k := fun e => h e.symm
      simp only [keys] at ih
      by_cases there : key ∈ others.map (·.1) <;> simp [keys, ih, ne, there]

theorem keys_insert_of_mem {pairs : List (String × α)} (there : key ∈ keys pairs) (value : α) :
    keys (insert pairs key value) = keys pairs := by
  rw [keys_insert, if_pos there]

theorem mem_keys_insert {pairs : List (String × α)} {key other : String} {value : α} :
    other ∈ keys (insert pairs key value) ↔ other ∈ keys pairs ∨ other = key := by
  rw [keys_insert]
  split
  next there =>
    constructor
    · exact .inl
    · rintro (old | rfl)
      · exact old
      · exact there
  next => simp

theorem isSome_lookup {pairs : List (String × α)} {key : String} :
    (pairs.lookup key).isSome = true ↔ key ∈ keys pairs := by
  induction pairs with
  | nil => simp [keys]
  | cons pair others ih =>
    obtain ⟨k, v⟩ := pair
    by_cases same : key = k
    · simp [keys, same]
    · have : (key == k) = false := by simpa using same
      simp only [keys] at ih
      simp [List.lookup_cons, keys, this, same, ih]

end Scriptlet.Assoc
