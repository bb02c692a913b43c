import LuauWorkspace.AnalysisConfig.Reader
import LuauWorkspace.Proofs.Json.Ensures

/-! # What configuration files list

The dictionaries in a configuration file that has been read are sorted, so that a file lists every
lint and every alias once. -/

namespace LuauWorkspace.ConfigFile

open JsonReader

/-- The lints and the aliases of a file are sorted. -/
structure IsSorted (file : ConfigFile) : Prop where
  lint : ∀ lint, file.lint = some lint → lint.IsSorted
  aliases : ∀ aliases, file.aliases = some aliases → aliases.IsSorted

theorem isSorted_empty : IsSorted {} where
  lint _ h := by cases h
  aliases _ h := by cases h

theorem ensures_optional_dictionaryOf {α : Type} (depth : Nat) (entry : JsonReader α) :
    Ensures (optional (dictionaryOf depth entry)) fun field =>
      ∀ d, field = some d → d.IsSorted :=
  ensures_optional (ensures_dictionaryOf depth entry)

theorem ensures_reader : Ensures reader IsSorted := by
  have hlint := ensures_optional_dictionaryOf (nesting - 1) boolean
  have haliases := ensures_optional_dictionaryOf (nesting - 1) (text "a string")
  rw [reader]
  refine ensures_next fun token => ?_
  split
  · refine ensures_bind (ensures_object isSorted_empty fun draft member hdraft => ?_)
      fun draft hdraft => ensures_pure hdraft
    split
    · exact ensures_next fun field => ensures_pure ⟨hdraft.lint, hdraft.aliases⟩
    · refine ensures_bind (ensures_once _ _ hlint) fun field hfield => ensures_pure ⟨?_, ?_⟩
      · intro lint h
        exact hfield _ (Option.join_eq_some_iff.mp h) lint rfl
      · exact hdraft.aliases
    · exact ensures_next fun field => ensures_pure ⟨hdraft.lint, hdraft.aliases⟩
    · exact ensures_next fun field => ensures_pure ⟨hdraft.lint, hdraft.aliases⟩
    · exact ensures_next fun field => ensures_pure ⟨hdraft.lint, hdraft.aliases⟩
    · refine ensures_bind (ensures_once _ _ haliases) fun field hfield => ensures_pure ⟨?_, ?_⟩
      · exact hdraft.lint
      · intro aliases h
        exact hfield _ (Option.join_eq_some_iff.mp h) aliases rfl
    · exact ensures_throw _ _
  · refine ensures_next fun _ => ensures_next fun mode => ?_
    refine ensures_bind (ensures_itemOr (ensures_throw _ _) hlint false) fun lint hlint => ?_
    refine ensures_next fun lintErrors => ensures_next fun typeErrors =>
      ensures_next fun globals => ?_
    refine ensures_bind (ensures_itemOr (ensures_throw _ _) haliases false)
      fun aliases haliases => ?_
    exact ensures_next fun _ => ensures_pure ⟨hlint, haliases⟩
  · exact ensures_mismatch _ _

/-- The dictionaries of every file that is read are sorted. -/
theorem isSorted_of_read {text : String} {file : ConfigFile} (h : read text = .ok file) :
    file.IsSorted := by
  rw [read] at h
  split at h
  · obtain rfl := Except.ok.inj h
    exact isSorted_empty
  · exact ensures_run ensures_reader h

end LuauWorkspace.ConfigFile
