import LuauWorkspace.Proofs.Resolver.Step
import LuauWorkspace.Proofs.SourceTree.Place

/-! # What sessions keep

The root of a session never changes, and its index is empty or that of a source tree under this
root. So the root stays canonical, places lie in the tree and the files of instances are canonical.
-/

namespace LuauWorkspace

namespace Resolver

/-! ## Runs -/

/-- What a resolver with an absolute root keeps. -/
structure WellFormed (r : Resolver) : Prop where
  root : r.root.IsCanonical
  index : r.index.WellFormed

theorem Outcome.wellFormed {r after : Resolver} {disk : FileSystem} {operation : Operation}
    (houtcome : r.Outcome disk operation after) (h : r.WellFormed) : after.WellFormed := by
  cases houtcome with
  | unchanged => exact h
  | documents huri hothers =>
      rw [putDocuments]
      split
      · exact ⟨h.root, h.index⟩
      · exact ⟨h.root, h.index⟩
  | forgotten hindex =>
      refine ⟨h.root, ?_⟩
      rcases hindex with rfl | rfl | ⟨tree, rfl⟩
      · exact h.index
      · exact TreeIndex.wellFormed_empty
      · exact TreeIndex.wellFormed_ofTree h.root tree
  | plugin => exact ⟨h.root, h.index⟩
  | @asked query =>
      obtain ⟨configs, hkeeps⟩ := r.ask_keeps disk query
      rw [hkeeps]
      exact ⟨h.root, h.index⟩

theorem wellFormed_new {root : Path} (habsolute : root.absolute = true) (hproper : root.IsProper)
    (home : Option String) (defaults : AnalysisConfig) (settings : Settings) (disk : FileSystem) :
    (Session.new home root defaults settings disk).resolver.WellFormed :=
  ⟨Path.isCanonical_normalize habsolute hproper, TreeIndex.wellFormed_empty⟩

/-- Every session with an absolute root keeps a canonical root and a well-formed index. -/
theorem wellFormed_of_reached {start s : Session} (h : Session.Reached start s)
    (hstart : start.resolver.WellFormed) : s.resolver.WellFormed := by
  induction h with
  | start => exact hstart
  | step _ hs ih =>
      cases hs with
      | operation operation _ => exact (outcome_run _ _ operation).wellFormed ih
      | diskChange _ => exact ih

end Resolver

end LuauWorkspace
