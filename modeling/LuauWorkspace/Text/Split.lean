/-! # Cutting texts at characters

Texts are lists of characters here. `splitOn` cuts at every character of a class and keeps the
empty pieces; `splitLast` cuts at the last occurrence of one character. -/

namespace LuauWorkspace.Text

/-- The pieces of a text between the characters that satisfy `isCut`, empty pieces included. A text
without such a character is one piece. -/
def splitOn (isCut : Char → Bool) : List Char → List (List Char)
  | [] => [[]]
  | c :: rest =>
    if isCut c then [] :: splitOn isCut rest
    else match splitOn isCut rest with
      | [] => [[c]]
      | piece :: pieces => (c :: piece) :: pieces

/-- What stands before and after the last `cut`, or `none` when the text has no `cut`. -/
def splitLast (cut : Char) : List Char → Option (List Char × List Char)
  | [] => none
  | c :: rest =>
    match splitLast cut rest with
    | some (before, after) => some (c :: before, after)
    | none => if c = cut then some ([], rest) else none

/-- What follows `start` at the beginning of a text, or `none` when the text does not begin so. -/
def dropStart? : List Char → List Char → Option (List Char)
  | [], text => some text
  | _ :: _, [] => none
  | s :: start, c :: text => if s = c then dropStart? start text else none

/-- What precedes `ending` at the end of a text, or `none` when the text does not end so. -/
def dropEnd? (ending text : List Char) : Option (List Char) :=
  (dropStart? ending.reverse text.reverse).map List.reverse

/-- The pieces with `separator` between every two of them. -/
def joinWith (separator : List Char) : List (List Char) → List Char
  | [] => []
  | [piece] => piece
  | piece :: pieces => piece ++ separator ++ joinWith separator pieces

/-! ## The pieces of a split -/

theorem splitOn_ne_nil (isCut : Char → Bool) (text : List Char) : splitOn isCut text ≠ [] := by
  induction text with
  | nil => simp [splitOn]
  | cons c rest ih =>
    simp only [splitOn]
    split
    · simp
    · split <;> simp

/-- Joining the pieces with the cut character gives the text back. -/
theorem joinWith_splitOn (cut : Char) (text : List Char) :
    joinWith [cut] (splitOn (· == cut) text) = text := by
  induction text with
  | nil => rfl
  | cons c rest ih =>
    simp only [splitOn]
    cases h : splitOn (· == cut) rest with
    | nil => exact absurd h (splitOn_ne_nil _ _)
    | cons piece pieces =>
      rw [h] at ih
      by_cases hc : c = cut
      · subst hc; simp [joinWith, ih]
      · cases pieces <;> simp_all [joinWith]

theorem not_isCut_of_mem_splitOn {isCut : Char → Bool} {text piece : List Char} {c : Char}
    (hp : piece ∈ splitOn isCut text) (hc : c ∈ piece) : isCut c = false := by
  induction text generalizing piece with
  | nil => simp_all [splitOn]
  | cons d rest ih =>
    simp only [splitOn] at hp
    split at hp
    · rcases List.mem_cons.1 hp with rfl | hp
      · simp at hc
      · exact ih hp hc
    · next hd =>
      cases h : splitOn isCut rest with
      | nil => exact absurd h (splitOn_ne_nil _ _)
      | cons first pieces =>
        rw [h] at hp ih
        rcases List.mem_cons.1 hp with rfl | hp
        · rcases List.mem_cons.1 hc with rfl | hc
          · simpa using hd
          · exact ih List.mem_cons_self hc
        · exact ih (List.mem_cons_of_mem _ hp) hc

/-! ## Beginnings and endings -/

theorem dropStart?_eq_some_iff {start text rest : List Char} :
    dropStart? start text = some rest ↔ text = start ++ rest := by
  induction start generalizing text with
  | nil => simp [dropStart?, eq_comm]
  | cons s start ih =>
    cases text with
    | nil => simp [dropStart?]
    | cons c text =>
      by_cases h : s = c
      · simp [dropStart?, h, ih]
      · simp [dropStart?, h, Ne.symm h]

theorem dropEnd?_eq_some_iff {ending text rest : List Char} :
    dropEnd? ending text = some rest ↔ text = rest ++ ending := by
  simp only [dropEnd?, Option.map_eq_some_iff, dropStart?_eq_some_iff]
  constructor
  · rintro ⟨back, h, rfl⟩
    simpa using congrArg List.reverse h
  · rintro rfl
    exact ⟨rest.reverse, by simp, by simp⟩

theorem splitLast_eq_some {cut : Char} {text before after : List Char}
    (h : splitLast cut text = some (before, after)) :
    text = before ++ cut :: after ∧ cut ∉ after := by
  induction text generalizing before with
  | nil => simp [splitLast] at h
  | cons c rest ih =>
    simp only [splitLast] at h
    cases hr : splitLast cut rest with
    | some pair =>
      obtain ⟨b, a⟩ := pair
      rw [hr] at h
      simp only [Option.some.injEq, Prod.mk.injEq] at h
      obtain ⟨rfl, rfl⟩ := h
      obtain ⟨rfl, hn⟩ := ih hr
      exact ⟨rfl, hn⟩
    | none =>
      rw [hr] at h
      simp only [Option.ite_none_right_eq_some, Option.some.injEq, Prod.mk.injEq] at h
      obtain ⟨rfl, rfl, rfl⟩ := h
      refine ⟨rfl, fun hm => ?_⟩
      clear ih
      induction rest with
      | nil => simp at hm
      | cons d rest ih =>
        simp only [splitLast] at hr
        cases hr' : splitLast c rest with
        | some pair => rw [hr'] at hr; simp at hr
        | none =>
          rw [hr'] at hr
          simp only [ite_eq_right_iff, reduceCtorEq, imp_false] at hr
          rcases List.mem_cons.1 hm with rfl | hm
          · exact hr rfl
          · exact ih hr' hm

end LuauWorkspace.Text
