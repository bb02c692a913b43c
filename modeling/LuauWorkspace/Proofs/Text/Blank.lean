import LuauWorkspace.Text.Blank
import Mathlib.Data.List.Induction
import Mathlib.Data.List.TakeWhile

/-! # White space around texts

A text is its trimmed form with white space before and after it. -/

namespace LuauWorkspace.Text

/-- A run of white space, perhaps empty. -/
def IsGap (gap : List Char) : Prop := ∀ c ∈ gap, isBlank c = true

theorem isGap_nil : IsGap [] := by simp [IsGap]

theorem IsGap.append {gap gap' : List Char} (h : IsGap gap) (h' : IsGap gap') :
    IsGap (gap ++ gap') := by
  intro c hc
  exact (List.mem_append.mp hc).elim (h c) (h' c)

theorem IsGap.reverse {gap : List Char} (h : IsGap gap) : IsGap gap.reverse := by
  simpa [IsGap] using h

/-! ## The beginning of a text -/

theorem trimStart_append {gap : List Char} (h : IsGap gap) (text : List Char) :
    trimStart (gap ++ text) = trimStart text :=
  List.dropWhile_append_of_pos h

theorem trimStart_cons {c : Char} (h : isBlank c = false) (text : List Char) :
    trimStart (c :: text) = c :: text := by
  rw [trimStart, List.dropWhile_cons_of_neg (by simp [h])]

theorem exists_trimStart (text : List Char) : ∃ gap, IsGap gap ∧ text = gap ++ trimStart text :=
  ⟨text.takeWhile isBlank, fun _ => List.mem_takeWhile_imp,
    List.takeWhile_append_dropWhile.symm⟩

/-! ## Both ends -/

theorem exists_trim (text : List Char) :
    ∃ before after, IsGap before ∧ IsGap after ∧ text = before ++ (trim text ++ after) := by
  obtain ⟨before, hbefore, htext⟩ := exists_trimStart text
  obtain ⟨after, hafter, hback⟩ := exists_trimStart (trimStart text).reverse
  refine ⟨before, after.reverse, hbefore, hafter.reverse, ?_⟩
  have hfront := congrArg List.reverse hback
  rw [List.reverse_reverse, List.reverse_append] at hfront
  rw [trim, trimEnd, ← hfront, ← htext]

/-- A text that ends in a character which is no white space. -/
def EndsSolid (text : List Char) : Prop :=
  ∃ front last, text = front ++ [last] ∧ isBlank last = false

theorem EndsSolid.append {text : List Char} (h : EndsSolid text) (front : List Char) :
    EndsSolid (front ++ text) := by
  obtain ⟨middle, last, rfl, hlast⟩ := h
  exact ⟨front ++ middle, last, by rw [List.append_assoc], hlast⟩

/-- White space is taken off a text that has none at its own ends. -/
theorem trim_append {before after rest : List Char} {first : Char} (hbefore : IsGap before)
    (hafter : IsGap after) (hfirst : isBlank first = false) (hlast : EndsSolid (first :: rest)) :
    trim (before ++ (first :: rest ++ after)) = first :: rest := by
  obtain ⟨front, last, htext, hlast⟩ := hlast
  have hstart : trimStart (before ++ (first :: rest ++ after)) = first :: rest ++ after := by
    rw [trimStart_append hbefore, List.cons_append, trimStart_cons hfirst]
  have hend : trimStart (first :: rest ++ after).reverse = (first :: rest).reverse := by
    rw [List.reverse_append, trimStart_append hafter.reverse, htext, List.reverse_append,
      List.reverse_singleton, List.singleton_append, trimStart_cons hlast]
  rw [trim, hstart, trimEnd, hend, List.reverse_reverse]

end LuauWorkspace.Text
