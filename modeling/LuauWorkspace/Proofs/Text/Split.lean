import LuauWorkspace.Text.Split
import Mathlib.Data.List.Basic
import Mathlib.Data.List.TakeDrop

/-! # Cutting texts

The pieces of a text are known from the pieces of its parts. -/

namespace LuauWorkspace.Text

/-! ## Pieces -/

theorem splitOn_of_forall_eq_false {isCut : Char → Bool} {text : List Char}
    (h : ∀ c ∈ text, isCut c = false) : splitOn isCut text = [text] := by
  induction text with
  | nil => rfl
  | cons c rest ih =>
      have hrest : splitOn isCut rest = [rest] := by
        apply ih
        intro d hd
        exact h d (List.mem_cons_of_mem c hd)
      rw [splitOn, h c List.mem_cons_self, hrest]
      rfl

theorem splitOn_of_not_mem {cut : Char} {text : List Char} (h : cut ∉ text) :
    splitOn (· == cut) text = [text] :=
  splitOn_of_forall_eq_false fun _ hc => beq_eq_false_iff_ne.mpr (ne_of_mem_of_not_mem hc h)

theorem splitOn_cons {isCut : Char → Bool} {cut : Char} (hcut : isCut cut = true)
    (text : List Char) : splitOn isCut (cut :: text) = [] :: splitOn isCut text := by
  rw [splitOn, if_pos hcut]

/-- The pieces before a cut do not depend on what follows it. -/
theorem splitOn_append_cons {isCut : Char → Bool} {cut : Char} (hcut : isCut cut = true)
    (front back : List Char) :
    splitOn isCut (front ++ cut :: back) = splitOn isCut front ++ splitOn isCut back := by
  induction front with
  | nil => exact splitOn_cons hcut back
  | cons c front ih =>
      rw [List.cons_append, splitOn, splitOn, ih]
      by_cases hc : isCut c = true
      · simp [hc]
      · cases hf : splitOn isCut front with
        | nil => exact absurd hf (splitOn_ne_nil isCut front)
        | cons piece pieces => simp [hc]

/-- Pieces without a cut that are joined by one are found again. -/
theorem splitOn_intercalate {isCut : Char → Bool} {cut : Char} (hcut : isCut cut = true)
    {pieces : List (List Char)} (hne : pieces ≠ [])
    (h : ∀ piece ∈ pieces, ∀ c ∈ piece, isCut c = false) :
    splitOn isCut ([cut].intercalate pieces) = pieces := by
  induction pieces with
  | nil => exact absurd rfl hne
  | cons first rest ih =>
      have hfirst := splitOn_of_forall_eq_false (h first List.mem_cons_self)
      cases rest with
      | nil => simpa using hfirst
      | cons second rest =>
          have hrest := ih (by simp) fun piece hmem => h piece (List.mem_cons_of_mem first hmem)
          rw [List.intercalate_cons_cons, List.append_assoc, List.singleton_append,
            splitOn_append_cons hcut, hfirst, hrest]
          rfl

/-- What is written after a text without a cut goes to the last piece. -/
theorem exists_splitOn_append {isCut : Char → Bool} {suffix : List Char}
    (h : ∀ c ∈ suffix, isCut c = false) (text : List Char) :
    ∃ pieces last, splitOn isCut text = pieces ++ [last] ∧
      splitOn isCut (text ++ suffix) = pieces ++ [last ++ suffix] := by
  induction text with
  | nil => exact ⟨[], [], rfl, splitOn_of_forall_eq_false h⟩
  | cons c rest ih =>
      obtain ⟨pieces, last, hrest, hsuffix⟩ := ih
      rw [List.cons_append, splitOn, splitOn, hrest, hsuffix]
      by_cases hc : isCut c = true
      · exact ⟨[] :: pieces, last, by simp [hc], by simp [hc]⟩
      · cases pieces with
        | nil => exact ⟨[], c :: last, by simp [hc], by simp [hc]⟩
        | cons piece pieces => exact ⟨(c :: piece) :: pieces, last, by simp [hc], by simp [hc]⟩

theorem splitOn_congr {isCut isCut' : Char → Bool} {text : List Char}
    (h : ∀ c ∈ text, isCut c = isCut' c) : splitOn isCut text = splitOn isCut' text := by
  induction text with
  | nil => rfl
  | cons c rest ih =>
      have hrest : splitOn isCut rest = splitOn isCut' rest := by
        apply ih
        intro d hd
        exact h d (List.mem_cons_of_mem c hd)
      rw [splitOn, splitOn, h c List.mem_cons_self, hrest]

theorem splitOn_replicate {isCut : Char → Bool} {cut : Char} (hcut : isCut cut = true) (n : Nat) :
    splitOn isCut (List.replicate n cut) = List.replicate (n + 1) [] := by
  induction n with
  | zero => rfl
  | succ n ih =>
      rw [List.replicate_succ, splitOn_cons hcut, ih, ← List.replicate_succ]

/-! ## The first mark -/

/-- Two equal texts have the same front before their first mark and the same back after it. -/
theorem append_cons_inj {mark : Char} {front front' back back' : List Char}
    (hfront : mark ∉ front) (hfront' : mark ∉ front')
    (h : front ++ mark :: back = front' ++ mark :: back') : front = front' ∧ back = back' := by
  induction front generalizing front' with
  | nil =>
      cases front' with
      | nil => exact ⟨rfl, (List.cons.inj h).2⟩
      | cons c front' =>
          rw [← (List.cons.inj h).1] at hfront'
          exact absurd List.mem_cons_self hfront'
  | cons c front ih =>
      cases front' with
      | nil =>
          rw [(List.cons.inj h).1] at hfront
          exact absurd List.mem_cons_self hfront
      | cons c' front' =>
          obtain ⟨rfl, hrest⟩ := List.cons.inj h
          obtain ⟨rfl, hback⟩ := ih (List.not_mem_of_not_mem_cons hfront)
            (List.not_mem_of_not_mem_cons hfront') hrest
          exact ⟨rfl, hback⟩

/-! ## Runs -/

/-- A run of characters ends where the first other one comes. -/
theorem span_append {p : Char → Bool} {front back : List Char} (hfront : ∀ c ∈ front, p c = true)
    (hback : ∀ c, back.head? = some c → p c = false) : (front ++ back).span p = (front, back) := by
  rw [List.span_eq_takeWhile_dropWhile, List.takeWhile_append_of_pos hfront,
    List.dropWhile_append_of_pos hfront]
  cases back with
  | nil => simp
  | cons c back => simp [hback c rfl]

end LuauWorkspace.Text
