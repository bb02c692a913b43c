/-! # Dictionaries

A dictionary lists keys with their values in ascending order of the keys. Inserting under a key that
is present replaces its value. -/

namespace LuauWorkspace

/-- Keys with their values, in ascending order of the keys. -/
abbrev Dictionary (α : Type) := List (String × α)

namespace Dictionary

variable {α : Type}

/-- The value under a key. -/
def find? : Dictionary α → String → Option α
  | [], _ => none
  | (key, value) :: rest, sought => if key = sought then some value else find? rest sought

/-- The dictionary with `value` under `key`. -/
def insert : Dictionary α → String → α → Dictionary α
  | [], key, value => [(key, value)]
  | (first, old) :: rest, key, value =>
    if first = key then (key, value) :: rest
    else if key < first then (key, value) :: (first, old) :: rest
    else (first, old) :: insert rest key value

/-- The first dictionary with all entries of the second put into it. -/
def insertAll (base added : Dictionary α) : Dictionary α :=
  added.foldl (fun all (key, value) => insert all key value) base

/-! ## Looking up after inserting -/

theorem find?_insert (d : Dictionary α) (key sought : String) (value : α) :
    find? (insert d key value) sought = if key = sought then some value else find? d sought := by
  induction d with
  | nil => simp [insert, find?]
  | cons entry rest ih =>
    obtain ⟨first, old⟩ := entry
    simp only [insert]
    split
    · next h => subst h; simp only [find?]; split <;> rfl
    · split
      · simp only [find?]
      · simp only [find?, ih]
        split <;> split <;> simp_all

end Dictionary

end LuauWorkspace
