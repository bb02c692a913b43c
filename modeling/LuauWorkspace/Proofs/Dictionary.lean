import LuauWorkspace.Dictionary
import Mathlib.Data.String.Basic

/-! # Sorted dictionaries

A dictionary that has been built by inserting lists its keys in ascending order, each of them once.
Sorted dictionaries with the same values under all keys are equal. -/

namespace LuauWorkspace

namespace Dictionary

variable {α β : Type}

/-- The keys are in ascending order, and each of them is listed once. -/
def IsSorted (d : Dictionary α) : Prop := d.Pairwise fun entry later => entry.1 < later.1

instance (d : Dictionary α) : Decidable d.IsSorted :=
  inferInstanceAs (Decidable (d.Pairwise fun entry later => entry.1 < later.1))

theorem isSorted_nil : IsSorted ([] : Dictionary α) := List.Pairwise.nil

/-! ## Inserting -/

theorem mem_insert {d : Dictionary α} {key : String} {value : α} {entry : String × α}
    (h : entry ∈ insert d key value) : entry = (key, value) ∨ entry ∈ d := by
  induction d with
  | nil => exact .inl (List.mem_singleton.mp h)
  | cons first rest ih =>
      obtain ⟨name, old⟩ := first
      rw [insert] at h
      split at h
      · rcases List.mem_cons.mp h with h | h
        · exact .inl h
        · exact .inr (List.mem_cons_of_mem _ h)
      · split at h
        · exact List.mem_cons.mp h
        · rcases List.mem_cons.mp h with h | h
          · exact .inr (h ▸ List.mem_cons_self)
          · exact (ih h).imp id (List.mem_cons_of_mem _)

theorem isSorted_insert {d : Dictionary α} (h : d.IsSorted) (key : String) (value : α) :
    (insert d key value).IsSorted := by
  induction d with
  | nil => exact List.pairwise_singleton _ _
  | cons first rest ih =>
      obtain ⟨name, old⟩ := first
      obtain ⟨hfirst, hrest⟩ := List.pairwise_cons.mp h
      rw [insert]
      split
      · next heq =>
          subst heq
          exact List.pairwise_cons.mpr ⟨hfirst, hrest⟩
      · next hne =>
          split
          · next hlt =>
              refine List.pairwise_cons.mpr ⟨fun later hlater => ?_, h⟩
              rcases List.mem_cons.mp hlater with rfl | hlater
              · exact hlt
              · exact lt_trans hlt (hfirst later hlater)
          · next hge =>
              refine List.pairwise_cons.mpr ⟨fun later hlater => ?_, ih hrest⟩
              rcases mem_insert hlater with rfl | hlater
              · exact lt_of_le_of_ne (not_lt.mp hge) hne
              · exact hfirst later hlater

theorem isSorted_insertAll {d : Dictionary α} (h : d.IsSorted) (added : Dictionary α) :
    (insertAll d added).IsSorted := by
  induction added generalizing d with
  | nil => exact h
  | cons entry rest ih => exact ih (isSorted_insert h entry.1 entry.2)

/-! ## Looking up -/

theorem find?_eq_none {d : Dictionary α} {key : String} (h : ∀ entry ∈ d, entry.1 ≠ key) :
    find? d key = none := by
  induction d with
  | nil => rfl
  | cons entry rest ih =>
      rw [find?, if_neg (h entry List.mem_cons_self)]
      exact ih fun later hlater => h later (List.mem_cons_of_mem entry hlater)

theorem find?_cons_self (key : String) (value : α) (rest : Dictionary α) :
    find? ((key, value) :: rest) key = some value := by rw [find?, if_pos rfl]

theorem IsSorted.find?_rest {key : String} {value : α} {rest : Dictionary α}
    (h : IsSorted ((key, value) :: rest)) : find? rest key = none :=
  find?_eq_none fun later hlater => ((List.pairwise_cons.mp h).1 later hlater).ne'

/-- A sorted dictionary has one value under a key, the one that is found. -/
theorem IsSorted.mem_iff {d : Dictionary α} (h : d.IsSorted) {key : String} {value : α} :
    (key, value) ∈ d ↔ find? d key = some value := by
  induction d with
  | nil => simp [find?]
  | cons entry rest ih =>
      obtain ⟨first, old⟩ := entry
      obtain ⟨-, hrest⟩ := List.pairwise_cons.mp h
      rw [List.mem_cons, Prod.mk.injEq, ih hrest, find?]
      by_cases hkey : first = key
      · subst hkey
        rw [if_pos rfl, h.find?_rest]
        simp [eq_comm]
      · rw [if_neg hkey]
        simp [Ne.symm hkey]

theorem IsSorted.first_le {first key : String} {old value : α} {rest : Dictionary α}
    (h : IsSorted ((first, old) :: rest))
    (hfound : find? ((first, old) :: rest) key = some value) : first ≤ key := by
  by_contra hlt
  rw [find?_eq_none] at hfound
  · cases hfound
  · intro later hlater
    rcases List.mem_cons.mp hlater with rfl | hlater
    · exact (not_le.mp hlt).ne'
    · exact (lt_trans (not_le.mp hlt) ((List.pairwise_cons.mp h).1 later hlater)).ne'

/-- What is added counts before what was there. -/
theorem find?_insertAll {added : Dictionary α} (h : added.IsSorted) (base : Dictionary α)
    (key : String) : find? (insertAll base added) key = (find? added key <|> find? base key) := by
  induction added generalizing base with
  | nil => rfl
  | cons entry rest ih =>
      obtain ⟨first, value⟩ := entry
      have hstep : insertAll base ((first, value) :: rest) =
          insertAll (insert base first value) rest := rfl
      rw [hstep, ih (List.pairwise_cons.mp h).2, find?_insert, find?]
      by_cases heq : first = key
      · subst heq
        rw [h.find?_rest, if_pos rfl, if_pos rfl]
        rfl
      · rw [if_neg heq, if_neg heq]

/-- Sorted dictionaries are equal when they have the same values. -/
theorem IsSorted.ext {d d' : Dictionary α} (h : d.IsSorted) (h' : d'.IsSorted)
    (heq : ∀ key, find? d key = find? d' key) : d = d' := by
  induction d generalizing d' with
  | nil =>
      cases d' with
      | nil => rfl
      | cons entry' rest' =>
          have hkey := heq entry'.1
          rw [find?_cons_self] at hkey
          cases hkey
  | cons entry rest ih =>
      obtain ⟨key, value⟩ := entry
      cases d' with
      | nil =>
          have hkey := heq key
          rw [find?_cons_self] at hkey
          cases hkey
      | cons entry' rest' =>
          obtain ⟨key', value'⟩ := entry'
          -- Each first key is found in the other dictionary, so neither is below the other.
          have hle : key ≤ key' :=
            h.first_le ((heq key').trans (find?_cons_self key' value' rest'))
          have hge : key' ≤ key :=
            h'.first_le ((heq key).symm.trans (find?_cons_self key value rest))
          obtain rfl := le_antisymm hle hge
          have hvalue := heq key
          rw [find?_cons_self, find?_cons_self] at hvalue
          obtain rfl := Option.some.inj hvalue
          have hrest : ∀ other, find? rest other = find? rest' other := by
            intro other
            by_cases hother : key = other
            · rw [← hother, h.find?_rest, h'.find?_rest]
            · have hsame := heq other
              rwa [find?, find?, if_neg hother, if_neg hother] at hsame
          rw [ih (List.pairwise_cons.mp h).2 (List.pairwise_cons.mp h').2 hrest]

/-- What is put in a second time changes nothing. -/
theorem insertAll_insertAll {base added : Dictionary α} (hbase : base.IsSorted)
    (hadded : added.IsSorted) : insertAll (insertAll base added) added = insertAll base added := by
  have hsorted := isSorted_insertAll hbase added
  refine IsSorted.ext (isSorted_insertAll hsorted added) hsorted fun key => ?_
  rw [find?_insertAll hadded, find?_insertAll hadded]
  cases find? added key with
  | some value => rfl
  | none => rfl

/-! ## Mapping the values -/

theorem isSorted_map {d : Dictionary α} (h : d.IsSorted) (f : α → β) :
    IsSorted (d.map fun (key, value) => (key, f value)) :=
  List.pairwise_map.mpr h

theorem find?_map (d : Dictionary α) (f : α → β) (key : String) :
    find? (d.map fun (key, value) => (key, f value)) key = (find? d key).map f := by
  induction d with
  | nil => rfl
  | cons entry rest ih =>
      rw [List.map_cons, find?, find?, ih]
      split
      · rfl
      · rfl

/-! ## Keys with a mark in front -/

theorem isSorted_mark {d : Dictionary α} (h : d.IsSorted) (mark : String) :
    IsSorted (d.map fun (key, value) => (mark ++ key, value)) := by
  refine List.pairwise_map.mpr (h.imp fun {entry later} hlt => ?_)
  have hmark : ∀ front text text' : List Char, text < text' → front ++ text < front ++ text' := by
    intro front text text' hlt
    induction front with
    | nil => exact hlt
    | cons c front ih => exact List.cons_lt_cons_iff.mpr (.inr ⟨rfl, ih⟩)
  rw [String.lt_iff_toList_lt, String.toList_append, String.toList_append]
  exact hmark _ _ _ (String.lt_iff_toList_lt.mp hlt)

theorem find?_mark_eq_some_iff {d : Dictionary α} {mark key : String} {value : α} :
    find? (d.map fun (key, value) => (mark ++ key, value)) key = some value ↔
      ∃ name, key = mark ++ name ∧ find? d name = some value := by
  induction d with
  | nil => simp [find?]
  | cons entry rest ih =>
      obtain ⟨first, old⟩ := entry
      rw [List.map_cons, find?]
      by_cases hkey : mark ++ first = key
      · subst hkey
        have hname : ∀ name, mark ++ first = mark ++ name ↔ name = first := by
          intro name
          rw [String.append_right_inj, eq_comm]
        simp [hname, find?]
      · rw [if_neg hkey, ih]
        refine exists_congr fun name => and_congr_right fun hname => ?_
        rw [find?, if_neg]
        rintro rfl
        exact hkey hname.symm

end Dictionary

end LuauWorkspace
