import LuauWorkspace.Proofs.Dictionary
import LuauWorkspace.Proofs.Path.Home
import LuauWorkspace.Require.Alias
import Mathlib.Data.List.Induction

/-! # The longest alias wins

Of all tokens of a table that a require begins with, the longest one is found. -/

namespace LuauWorkspace.Alias

variable {aliases : Dictionary String} {token target require : String} {rest : List Char}

/-! ## One token -/

/-- A require begins with a token and goes on with `rest`. The token is not empty, and where it ends
the require ends too or there is a separator, after the token or at its end. -/
structure Begins (token require : String) (rest : List Char) : Prop where
  token_ne : token ≠ ""
  text : require.toList = token.toList ++ rest
  boundary : rest = [] ∨ ∃ c, (c = '/' ∨ c = '\\') ∧
    (rest.head? = some c ∨ token.toList.getLast? = some c)

theorem rest?_eq_some_iff : rest? token require = some rest ↔ Begins token require rest := by
  have hboundary : ∀ rest : List Char,
      (rest.head?.all isSeparator || token.toList.getLast?.any isSeparator) = true ↔
        rest = [] ∨ ∃ c, (c = '/' ∨ c = '\\') ∧
          (rest.head? = some c ∨ token.toList.getLast? = some c) := by
    intro rest
    simp only [← isSeparator_iff, Bool.or_eq_true, Option.any_eq_true]
    cases rest with
    | nil => simp
    | cons first rest =>
        simp only [List.head?_cons, Option.all_some, List.cons_ne_nil, false_or,
          Option.some.injEq]
        constructor
        · rintro (hfirst | ⟨c, hlast, hc⟩)
          · exact ⟨first, hfirst, .inl rfl⟩
          · exact ⟨c, hc, .inr hlast⟩
        · rintro ⟨c, hc, rfl | hlast⟩
          · exact .inl hc
          · exact .inr ⟨c, hlast, hc⟩
  rw [rest?]
  constructor
  · intro h
    split at h
    · cases h
    · next hne =>
        split at h
        · next found hfound =>
            rw [Option.ite_none_right_eq_some] at h
            obtain ⟨hsides, hrest⟩ := h
            obtain rfl := Option.some.inj hrest
            exact ⟨hne, Text.dropStart?_eq_some_iff.mp hfound, (hboundary _).mp hsides⟩
        · cases h
  · rintro ⟨hne, htext, hsides⟩
    rw [if_neg hne, Text.dropStart?_eq_some_iff.mpr htext]
    simp only [(hboundary rest).mpr hsides, if_true]

/-- What a require leaves after a token is the shorter, the longer the token is. -/
theorem Begins.length_le_iff {other : String} {rest' : List Char} (h : Begins token require rest)
    (h' : Begins other require rest') :
    other.length ≤ token.length ↔ rest.length ≤ rest'.length := by
  have hsame := congrArg List.length (h.text.symm.trans h'.text)
  simp only [List.length_append, String.length_toList] at hsame
  omega

/-- Two tokens of one length at the beginning of a require are the same. -/
theorem Begins.eq_of_length {other : String} {rest' : List Char} (h : Begins token require rest)
    (h' : Begins other require rest') (hlength : rest.length = rest'.length) :
    token = other ∧ rest = rest' := by
  obtain ⟨htoken, hrest⟩ := List.append_inj' (h.text.symm.trans h'.text) hlength
  exact ⟨String.toList_inj.mp htoken, hrest⟩

/-! ## All tokens -/

/-- What is kept of the aliases that have been looked at: one that leaves the least. -/
def IsBest (seen : Dictionary String) (require : String) :
    Option (String × String × List Char) → Prop
  | none => ∀ entry ∈ seen, ∀ rest, ¬Begins entry.1 require rest
  | some (token, target, rest) => (token, target) ∈ seen ∧ Begins token require rest ∧
      ∀ entry ∈ seen, ∀ other, Begins entry.1 require other → rest.length ≤ other.length

/-- A token that is looked at takes the place of the best one unless it leaves more. -/
theorem isBest_longest? (aliases : Dictionary String) (require : String) :
    IsBest aliases require (longest? aliases require) := by
  induction aliases using List.reverseRecOn with
  | nil => simp [longest?, IsBest]
  | append_singleton seen entry ih =>
      obtain ⟨token, target⟩ := entry
      have hall : ∀ {p : String × String → Prop}, (∀ entry ∈ seen, p entry) → p (token, target) →
          ∀ entry ∈ seen ++ [(token, target)], p entry := fun hseen hnew =>
        List.forall_mem_append.mpr ⟨hseen, List.forall_mem_singleton.mpr hnew⟩
      rw [longest?] at ih ⊢
      rw [List.foldl_append, List.foldl_cons, List.foldl_nil]
      generalize seen.foldl _ none = best at ih ⊢
      cases hrest : rest? token require with
      | none =>
          have hunfit : ∀ rest, ¬Begins token require rest := fun rest hbegins =>
            Option.some_ne_none rest ((rest?_eq_some_iff.mpr hbegins).symm.trans hrest)
          simp only [hrest]
          cases best with
          | none => exact hall ih hunfit
          | some found =>
              obtain ⟨hmem, hbegins, hleast⟩ := ih
              exact ⟨List.mem_append_left _ hmem, hbegins,
                hall hleast fun other hother => absurd hother (hunfit other)⟩
      | some rest =>
          have hfits := rest?_eq_some_iff.mp hrest
          have hsame : ∀ other, Begins token require other → rest.length = other.length :=
            fun other hother => congrArg List.length
              (Option.some.inj (hrest.symm.trans (rest?_eq_some_iff.mpr hother)))
          simp only [hrest]
          cases best with
          | none =>
              exact ⟨by simp, hfits, hall (fun entry hentry other hother =>
                absurd hother (ih entry hentry other)) fun other hother => (hsame other hother).le⟩
          | some found =>
              obtain ⟨name, old, shortest⟩ := found
              obtain ⟨hmem, hbegins, hleast⟩ := ih
              simp only
              split
              · next hlt =>
                  exact ⟨List.mem_append_left _ hmem, hbegins,
                    hall hleast fun other hother => hsame other hother ▸ hlt.le⟩
              · next hge =>
                  exact ⟨by simp, hfits, hall (fun entry hentry other hother =>
                    (not_lt.mp hge).trans (hleast entry hentry other hother))
                    fun other hother => (hsame other hother).le⟩

/-- The longest token of a table that a require begins with is found, with its target and with what
the require leaves. -/
theorem longest?_eq_some_iff (h : aliases.IsSorted) :
    longest? aliases require = some (token, target, rest) ↔
      aliases.find? token = some target ∧ Begins token require rest ∧
        ∀ other target' rest', aliases.find? other = some target' →
          Begins other require rest' → other.length ≤ token.length := by
  have hbest := isBest_longest? aliases require
  constructor
  · intro hlongest
    rw [hlongest] at hbest
    obtain ⟨hmem, hbegins, hleast⟩ := hbest
    refine ⟨h.mem_iff.mp hmem, hbegins, fun other target' rest' hfind hother => ?_⟩
    exact (hbegins.length_le_iff hother).mpr (hleast _ (h.mem_iff.mpr hfind) rest' hother)
  · rintro ⟨hfind, hbegins, hall⟩
    have hmem := h.mem_iff.mpr hfind
    cases hlongest : longest? aliases require with
    | none =>
        rw [hlongest] at hbest
        exact absurd hbegins (hbest _ hmem rest)
    | some found =>
        obtain ⟨name, old, shortest⟩ := found
        rw [hlongest] at hbest
        obtain ⟨hname, hfits, hleast⟩ := hbest
        have hle := (hbegins.length_le_iff hfits).mp (hall _ _ _ (h.mem_iff.mp hname) hfits)
        obtain ⟨rfl, rfl⟩ := hbegins.eq_of_length hfits
          (Nat.le_antisymm hle (hleast _ hmem rest hbegins))
        obtain rfl := Option.some.inj (hfind.symm.trans (h.mem_iff.mp hname))
        rfl

/-- Whenever a require begins with a token of a table, one is found. -/
theorem exists_longest? (h : aliases.IsSorted) (hfind : aliases.find? token = some target)
    (hbegins : Begins token require rest) :
    ∃ token target rest, longest? aliases require = some (token, target, rest) := by
  have hbest := isBest_longest? aliases require
  cases hlongest : longest? aliases require with
  | none =>
      rw [hlongest] at hbest
      exact absurd hbegins (hbest _ (h.mem_iff.mpr hfind) rest)
  | some found => exact ⟨_, _, _, rfl⟩

end LuauWorkspace.Alias
