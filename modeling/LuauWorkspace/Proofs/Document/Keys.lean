import LuauWorkspace.Document.Table
import Mathlib.Data.Set.Card

/-! # The keys of open documents

Documents are filed under different keys, so that a table has as many documents as keys, and each
under the key of its own uri. -/

namespace LuauWorkspace

namespace DocumentTable

/-- The keys under which documents are filed. -/
def keys (table : DocumentTable) : List String := table.entries.map Prod.fst

theorem mem_keys_iff {table : DocumentTable} {key : String} :
    key ∈ table.keys ↔ (table.find? key).isSome = true := by
  rw [keys, find?]
  induction table.entries with
  | nil => exact iff_of_false List.not_mem_nil Bool.false_ne_true
  | cons entry rest ih =>
      obtain ⟨first, document⟩ := entry
      rw [List.map_cons, List.mem_cons, Register.find?_cons, ih]
      by_cases hkey : key = first
      · simp [hkey]
      · simp [hkey]

/-! ## Keys after an event -/

theorem nodup_keys_add {table : DocumentTable} (document : Document)
    (hnodup : table.keys.Nodup) : (table.add document).2.keys.Nodup := by
  rw [add]
  split
  · exact hnodup
  · refine List.nodup_cons.mpr ⟨fun hmem => ?_, hnodup.sublist (List.filter_sublist.map Prod.fst)⟩
    have hfind := (@mem_keys_iff ⟨table.entries.erase document.uri.key⟩ _).mp hmem
    rw [find?, Register.find?_erase, if_pos rfl] at hfind
    cases hfind

theorem keys_change (table : DocumentTable) (uri : Uri) (content : String)
    (version : Option Int) : (table.change uri content version).2.keys = table.keys := by
  rw [change]
  split
  · exact List.map_map
  · rfl

theorem nodup_keys_close {table : DocumentTable} (uri : Uri) (hnodup : table.keys.Nodup) :
    (table.close uri).2.keys.Nodup :=
  hnodup.sublist (List.filter_sublist.map Prod.fst)

/-! ## What events keep -/

/-- What a table can be after an event about one of its documents. -/
inductive Next (table : DocumentTable) : DocumentTable → Prop where
  | kept : Next table table
  | added (document : Document) : Next table (table.add document).2
  | changed (uri : Uri) (content : String) (version : Option Int) :
      Next table (table.change uri content version).2
  | closed (uri : Uri) : Next table (table.close uri).2

theorem Next.nodup_keys {table after : DocumentTable} (h : table.Next after)
    (hnodup : table.keys.Nodup) : after.keys.Nodup := by
  cases h with
  | kept => exact hnodup
  | added document => exact nodup_keys_add document hnodup
  | changed uri content version =>
      rw [keys_change]
      exact hnodup
  | closed uri => exact nodup_keys_close uri hnodup

/-- Every document is filed under the key of its own uri. -/
def IsFiled (table : DocumentTable) : Prop :=
  ∀ key document, table.find? key = some document → document.uri.key = key

theorem isFiled_empty : empty.IsFiled := by
  rintro key document ⟨⟩

theorem Next.isFiled {table after : DocumentTable} (h : table.Next after)
    (hfiled : table.IsFiled) : after.IsFiled := by
  intro key document hfind
  cases h with
  | kept => exact hfiled key document hfind
  | added document =>
      rw [find?_add] at hfind
      by_cases hkey : key = document.uri.key
      · rw [if_pos hkey] at hfind
        cases hopen : table.find? key with
        | some held =>
            rw [hopen] at hfind
            exact Option.some.inj hfind ▸ hfiled key held hopen
        | none =>
            rw [hopen] at hfind
            rw [hkey, ← Option.some.inj hfind]
      · rw [if_neg hkey] at hfind
        exact hfiled key _ hfind
  | changed uri _ _ =>
      -- A change keeps the uri that the document was opened with.
      rw [find?_change] at hfind
      by_cases hkey : key = uri.key
      · rw [if_pos hkey] at hfind
        obtain ⟨before, hbefore, rfl⟩ := Option.map_eq_some_iff.mp hfind
        exact hfiled key before hbefore
      · rw [if_neg hkey] at hfind
        exact hfiled key document hfind
  | closed uri =>
      rw [find?_close] at hfind
      by_cases hkey : key = uri.key
      · rw [if_pos hkey] at hfind
        cases hfind
      · rw [if_neg hkey] at hfind
        exact hfiled key document hfind

/-! ## Counting -/

/-- A table has one document for every key under which there is one. -/
theorem encard_keys {table : DocumentTable} (hnodup : table.keys.Nodup) :
    {key : String | (table.find? key).isSome = true}.encard = table.size := by
  have hset : {key : String | (table.find? key).isSome = true} =
      (table.keys.toFinset : Set String) := by
    ext key
    rw [Finset.mem_coe, List.mem_toFinset, mem_keys_iff]
    exact Iff.rfl
  rw [hset, Set.encard_coe_eq_coe_finsetCard, List.toFinset_card_of_nodup hnodup, keys,
    List.length_map, size]

end DocumentTable

end LuauWorkspace
