import Mathlib.Data.List.Forall2

/-! # Related options and lists

Two options are related when both are empty or their values are related, two lists when they have
related elements in the same order. What two functions find or compute in related arguments is
related again. -/

namespace LuauWorkspace

variable {α β γ δ : Type} {related : α → β → Prop} {x : Option α} {y : Option β}

/-! ## Options -/

theorem exists_right_of_rel {a : α} (h : Option.Rel related (some a) y) :
    ∃ b, y = some b ∧ related a b := by
  cases h with
  | some hrelated => exact ⟨_, rfl, hrelated⟩

theorem exists_left_of_rel {b : β} (h : Option.Rel related x (some b)) :
    ∃ a, x = some a ∧ related a b := by
  cases h with
  | some hrelated => exact ⟨_, rfl, hrelated⟩

/-- Related values are taken to related values by functions that do so. -/
theorem rel_bind {related' : γ → δ → Prop} {f : α → Option γ} {g : β → Option δ}
    (h : Option.Rel related x y)
    (hstep : ∀ a b, related a b → Option.Rel related' (f a) (g b)) :
    Option.Rel related' (x.bind f) (y.bind g) := by
  cases h with
  | none => exact .none
  | some h => exact hstep _ _ h

/-- Functions that agree on related values agree on related options. -/
theorem bind_eq_of_rel {f : α → Option γ} {g : β → Option γ} (h : Option.Rel related x y)
    (hsame : ∀ a b, related a b → f a = g b) : x.bind f = y.bind g := by
  cases h with
  | none => rfl
  | some h => exact hsame _ _ h

theorem map_eq_of_rel {f : α → γ} {g : β → γ} (h : Option.Rel related x y)
    (hsame : ∀ a b, related a b → f a = g b) : x.map f = y.map g := by
  cases h with
  | none => rfl
  | some h => exact congrArg some (hsame _ _ h)

/-! ## Lists -/

/-- Lists that are related to the same third list are related to each other. -/
theorem forall₂_of_common {related' : α → γ → Prop} {target : β → γ → Prop} {ids : List α}
    {xs : List β} {ys : List γ} (h : List.Forall₂ related ids xs)
    (h' : List.Forall₂ related' ids ys)
    (htarget : ∀ id x y, related id x → related' id y → target x y) :
    List.Forall₂ target xs ys := by
  induction h generalizing ys with
  | nil =>
      cases h' with
      | nil => exact .nil
  | cons hhead _ ih =>
      cases h' with
      | cons hhead' htail' => exact .cons (htarget _ _ _ hhead hhead') (ih htail')

/-- What is found first in two lists whose elements are related is related. -/
theorem rel_find? {p : α → Bool} {q : β → Bool} {xs : List α} {ys : List β}
    (h : List.Forall₂ related xs ys) (hwanted : ∀ x y, related x y → p x = q y) :
    Option.Rel related (xs.find? p) (ys.find? q) := by
  induction h with
  | nil => exact .none
  | @cons x y xs ys hhead _ ih =>
      rw [List.find?_cons, List.find?_cons, hwanted x y hhead]
      cases q y with
      | true => exact .some hhead
      | false => exact ih

/-- What is found in two lists with the same elements is related when there is only one thing to be
found. -/
theorem rel_find?_of_unique {p : α → Bool} {q : β → Bool} {xs : List α} {ys : List β}
    (hright : ∀ x ∈ xs, ∃ y ∈ ys, related x y) (hleft : ∀ y ∈ ys, ∃ x ∈ xs, related x y)
    (hwanted : ∀ x y, related x y → p x = q y)
    (hunique : ∀ y ∈ ys, ∀ y' ∈ ys, q y = true → q y' = true → y = y') :
    Option.Rel related (xs.find? p) (ys.find? q) := by
  cases hx : xs.find? p with
  | none =>
      have hnone : ys.find? q = none := by
        rw [List.find?_eq_none]
        intro y hy
        obtain ⟨x, hmem, hrelated⟩ := hleft y hy
        rw [← hwanted x y hrelated]
        exact List.find?_eq_none.mp hx x hmem
      rw [hnone]
      exact .none
  | some x =>
      obtain ⟨y, hy, hrelated⟩ := hright x (List.mem_of_find?_eq_some hx)
      have hq : q y = true := (hwanted x y hrelated).symm.trans (List.find?_some hx)
      cases hfound : ys.find? q with
      | none => exact absurd hq (List.find?_eq_none.mp hfound y hy)
      | some y' =>
          obtain rfl := hunique y hy y' (List.mem_of_find?_eq_some hfound) hq
            (List.find?_some hfound)
          exact .some hrelated

/-- A list is related element by element to what it becomes when one element is changed. -/
theorem forall₂_modify {related : α → α → Prop} (hsame : ∀ a, related a a) {f : α → α}
    (hchanged : ∀ a, related a (f a)) (xs : List α) (i : Nat) :
    List.Forall₂ related xs (xs.modify i f) := by
  induction xs generalizing i with
  | nil =>
      rw [List.modify_nil]
      exact .nil
  | cons x xs ih =>
      cases i with
      | zero =>
          rw [List.modify_zero_cons]
          exact .cons (hchanged x) (List.forall₂_same.mpr fun a _ => hsame a)
      | succ i =>
          rw [List.modify_succ_cons]
          exact .cons (hsame x) (ih i)

end LuauWorkspace
