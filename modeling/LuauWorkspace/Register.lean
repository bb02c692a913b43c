/-! # Registers

A register holds one value at most under a key. Putting a value under a key that is present replaces
what is there, and the order of the entries does not matter. -/

namespace LuauWorkspace

/-- Keys with their values. -/
abbrev Register (κ ν : Type) := List (κ × ν)

namespace Register

variable {κ ν : Type} [DecidableEq κ]

/-- The value under a key. -/
def find? (register : Register κ ν) (key : κ) : Option ν := register.lookup key

/-- The register without a key. -/
def erase (register : Register κ ν) (key : κ) : Register κ ν := register.filter (·.1 ≠ key)

/-- The register with a value under a key. -/
def put (register : Register κ ν) (key : κ) (value : ν) : Register κ ν :=
  (key, value) :: erase register key

/-- The register with another value under a key that is present. -/
def update (register : Register κ ν) (key : κ) (f : ν → ν) : Register κ ν :=
  register.map fun (other, value) => (other, if other = key then f value else value)

/-! ## Looking up after a change -/

theorem find?_cons (register : Register κ ν) (first key : κ) (value : ν) :
    find? ((first, value) :: register) key =
      if key = first then some value else find? register key := by
  rw [find?, List.lookup_cons]
  by_cases h : key = first
  · rw [if_pos h, beq_iff_eq.mpr h]
  · rw [if_neg h, beq_eq_false_iff_ne.mpr h]
    rfl

theorem find?_erase (register : Register κ ν) (key other : κ) :
    find? (erase register key) other = if other = key then none else find? register other := by
  induction register with
  | nil => exact (ite_self none).symm
  | cons entry rest ih =>
    obtain ⟨first, value⟩ := entry
    rw [find?_cons]
    by_cases hfirst : first = key
    · rw [erase, List.filter_cons_of_neg (by simpa using hfirst), ← erase, ih, hfirst]
      split <;> rfl
    · rw [erase, List.filter_cons_of_pos (by simpa using hfirst), find?_cons, ← erase, ih]
      by_cases hother : other = first
      · rw [if_pos hother, if_neg (hother ▸ hfirst), if_pos hother]
      · rw [if_neg hother, if_neg hother]

theorem find?_put (register : Register κ ν) (key other : κ) (value : ν) :
    find? (put register key value) other =
      if other = key then some value else find? register other := by
  rw [put, find?_cons, find?_erase]
  split <;> rfl

theorem find?_update (register : Register κ ν) (key other : κ) (f : ν → ν) :
    find? (update register key f) other =
      if other = key then (find? register other).map f else find? register other := by
  induction register with
  | nil => exact (ite_self none).symm
  | cons entry rest ih =>
    obtain ⟨first, value⟩ := entry
    have hcons : update ((first, value) :: rest) key f =
        (first, if first = key then f value else value) :: update rest key f := rfl
    rw [hcons, find?_cons, find?_cons, ih]
    by_cases hother : other = first
    · subst hother
      rw [if_pos rfl, if_pos rfl]
      split <;> rfl
    · rw [if_neg hother, if_neg hother]

/-- A key that is absent need not be taken out. -/
theorem erase_of_find?_eq_none {register : Register κ ν} {key : κ}
    (h : find? register key = none) : erase register key = register := by
  rw [erase, List.filter_eq_self]
  rintro ⟨other, value⟩ hmem
  have hne : key ≠ other := bne_iff_ne.mp (List.lookup_eq_none_iff.mp h (other, value) hmem)
  exact decide_eq_true hne.symm

end Register

end LuauWorkspace
