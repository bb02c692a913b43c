import LuauWorkspace.Proofs.Path.NormalForm
import LuauWorkspace.Proofs.Resolver.Identity

/-! # Paths in normal form

The normal form of a path is a spelling of it that joining respects. A resolver with an absolute
root brings every path to it, so it does not matter how the path of a file is spelled. -/

namespace LuauWorkspace

namespace Resolver

/-- A resolver that knows every path by its absolute normal form, and every file by any spelling. -/
structure KeepsNormalForms (r : Resolver) : Prop where
  absolute : ∀ p, (r.absolute p).absolute = true
  normal : ∀ p, (r.absolute p).normalize = r.absolute p
  idempotent : ∀ p, r.absolute (r.absolute p) = r.absolute p
  /-- However a file is spelled, the last instance that claims it is found. -/
  found : ∀ p, r.index.ofFile? p = r.index.findLast? (·.file == some p.normalize)
  respelled : ∀ p q, p.normalize = q.normalize → r.index.ofFile? p = r.index.ofFile? q

theorem WellFormed.absolute_absolute {r : Resolver} (h : r.WellFormed) (p : Path) :
    (r.absolute p).absolute = true := by
  rw [Resolver.absolute, Path.absoluteIn, Path.absolute_normalize]
  exact Path.absolute_join h.root.absolute_eq p

theorem WellFormed.keepsNormalForms {r : Resolver} (h : r.WellFormed) : r.KeepsNormalForms where
  absolute := h.absolute_absolute
  normal p := Path.normalize_normalize (r.root.join p)
  idempotent p := by
    have hnormal : (r.absolute p).normalize = r.absolute p := Path.normalize_normalize _
    rw [Resolver.absolute, Path.absoluteIn, Path.join, if_pos (h.absolute_absolute p), hnormal]
  found := h.index.ofFile?_eq
  respelled p q hsame := by rw [h.index.ofFile?_eq, h.index.ofFile?_eq, hsame]

/-- Normal forms are spelled without anything superfluous, read back as they are, and can be joined
to instead of the paths. In every session with an absolute root the resolver keeps to them. -/
theorem normalForms_canonical :
    (∀ text, Path.IsNormalForm text (Path.ofString text).normalize) ∧
      ∀ (home : Option String) (root : String) (defaults : AnalysisConfig) (settings : Settings)
        (disk : FileSystem)
        (s : Session), (Path.ofString root).absolute = true →
        Session.Reached (Session.new home (Path.ofString root) defaults settings disk) s →
          s.resolver.KeepsNormalForms := by
  refine ⟨Path.isNormalForm_normalize, fun home root defaults settings disk s hroot h => ?_⟩
  have hwell := wellFormed_of_reached h
    (wellFormed_new hroot (Path.isProper_ofString root) home defaults settings disk)
  exact hwell.keepsNormalForms

/-- A root and a file that are spelled in roundabout ways. -/
theorem normalForms_canonical_roundabout :
    let start := Session.new none (Path.ofString "/proj//lib/./..") {} {}
      MemoryFiles.empty.fileSystem
    let r := start.resolver.setTree namesakes
    (Path.ofString "/proj//lib/./..").absolute = true ∧ Session.Reached start ⟨r, start.disk⟩ ∧
      Path.IsNormalForm "./lib/../..//a/." (Path.ofString "../a") ∧ r.KeepsNormalForms ∧
      (r.index.ofFile? (Path.ofString "/proj/x/.././b.luau/")).map (·.place) =
        some "ProjectRoot/A" := by
  intro start r
  have hroot : (Path.ofString "/proj//lib/./..").absolute = true := by decide
  have hreached : Session.Reached start ⟨r, start.disk⟩ :=
    .step .start (.operation (.setTree namesakes) (by rintro uri ⟨⟩))
  have hnormal : (Path.ofString "./lib/../..//a/.").normalize = Path.ofString "../a" := by decide
  exact ⟨hroot, hreached, hnormal ▸ normalForms_canonical.1 _,
    normalForms_canonical.2 _ _ _ _ _ _ hroot hreached, by decide +kernel⟩

end Resolver

end LuauWorkspace
