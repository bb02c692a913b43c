import LuauWorkspace.Proofs.Path.Relative
import LuauWorkspace.Proofs.Resolver.Identity

/-! # Display names

Users see the file of a module relative to the root when it lies below the root, and by its absolute
path otherwise. Either way the display name is the name of no other file. -/

namespace LuauWorkspace

open VirtualName

namespace Resolver

variable {r : Resolver} {name : String}

/-- Whether a path lies in the workspace and is not the root of it. -/
def LiesBelow (r : Resolver) (path : Path) : Prop := r.contains path = true ∧ path ≠ r.root

theorem liesBelow_iff {base names : List String} (hroot : r.root = Path.ofNames base) :
    r.LiesBelow (Path.ofNames names) ↔ ∃ rest, rest ≠ [] ∧ names = base ++ rest := by
  rw [LiesBelow, contains, Path.normalize_ofNames, hroot, Path.startsWith_ofNames_iff]
  constructor
  · rintro ⟨⟨rest, rfl⟩, hne⟩
    refine ⟨rest, ?_, rfl⟩
    rintro rfl
    exact hne (by rw [List.append_nil])
  · rintro ⟨rest, hne, rfl⟩
    refine ⟨⟨rest, rfl⟩, fun heq => hne ?_⟩
    exact List.append_right_eq_self.mp (Path.ofNames_injective heq)

/-- What the display name of a file can be. -/
inductive Displayed (r : Resolver) (path : Path) : String → Prop where
  | below {base rest : List String} (hroot : r.root = Path.ofNames base)
      (hpath : path = Path.ofNames (base ++ rest)) (hrest : ∀ name ∈ rest, IsEntryName name)
      (hne : rest ≠ []) : Displayed r path (Path.ofRest rest).toString
  | elsewhere (hpath : path.IsCanonical) (houtside : ¬r.LiesBelow path) :
      Displayed r path path.toString

theorem displayName_eq (hname : isVirtual name = false) :
    r.displayName name =
      (Path.below? (r.path name).toString r.root.toString).getD (r.path name).toString := by
  rw [displayName, if_neg (by simp [hname])]

theorem displayed_displayName (h : r.WellFormed) (hname : isVirtual name = false) :
    r.Displayed (r.path name) (r.displayName name) := by
  obtain ⟨base, hroot, hbase⟩ := h.root
  obtain ⟨names, hpath, hnames⟩ := isCanonical_path h name
  by_cases hbelow : r.LiesBelow (r.path name)
  · rw [hpath, liesBelow_iff hroot] at hbelow
    obtain ⟨rest, hne, rfl⟩ := hbelow
    rw [displayName_eq hname, hpath, hroot, Path.below?_append hnames, if_neg hne]
    exact .below hroot rfl (fun name hmem => hnames name (List.mem_append_right base hmem)) hne
  · have hnone : Path.below? (r.path name).toString r.root.toString = none := by
      by_cases hprefix : ∃ rest, names = base ++ rest
      · obtain ⟨rest, rfl⟩ := hprefix
        have hnil : rest = [] := by
          by_contra hne
          exact hbelow (hpath ▸ (liesBelow_iff hroot).mpr ⟨rest, hne, rfl⟩)
        rw [hpath, hroot, Path.below?_append hnames, if_pos hnil]
      · rw [hpath, hroot, Path.below?_eq_none hbase hnames]
        exact fun rest heq => hprefix ⟨rest, heq⟩
    rw [displayName_eq hname, hnone]
    exact .elsewhere ⟨names, hpath, hnames⟩ hbelow

/-- How the name that users see goes with the file of a module. -/
structure ShowsFile (r : Resolver) (name : String) : Prop where
  path_eq : r.path (r.displayName name) = r.path name
  relative_iff : (Path.ofString (r.displayName name)).absolute = false ↔
    r.contains (r.path name) = true ∧ r.path name ≠ r.root
  elsewhere : ¬(r.contains (r.path name) = true ∧ r.path name ≠ r.root) →
    r.displayName name = (r.path name).toString

theorem showsFile_displayName (h : r.WellFormed) (hname : isVirtual name = false) :
    r.ShowsFile name := by
  have hdisplayed := displayed_displayName h hname
  generalize hshown : r.displayName name = shown at hdisplayed
  cases hdisplayed with
  | @below base rest hroot hpath hrest hne =>
      have hback := Path.ofString_toString_ofRest hrest hne
      have hbelow : r.LiesBelow (r.path name) :=
        hpath ▸ (liesBelow_iff hroot).mpr ⟨rest, hne, rfl⟩
      refine ⟨?_, ?_, fun houtside => absurd hbelow houtside⟩
      · rw [hshown, path, hback, absolute, hroot, Path.absoluteIn_ofRest, hpath]
      · rw [hshown, hback]
        exact iff_of_true rfl hbelow
  | elsewhere hpath houtside =>
      refine ⟨?_, ?_, fun _ => hshown⟩
      · rw [hshown, path_toString hpath]
      · rw [hshown, hpath.ofString_toString, hpath.absolute_eq]
        exact iff_of_false Bool.noConfusion houtside

/-- In every session with an absolute root, the display name of a file is taken for this file, and
it is relative exactly for the files below the root. -/
theorem showsFile_of_reached {home : Option String} {root : String} {defaults : AnalysisConfig}
    {settings : Settings} {disk : FileSystem} {s : Session}
    (hroot : (Path.ofString root).absolute = true)
    (h : Session.Reached (Session.new home (Path.ofString root) defaults settings disk) s) :
    (∀ name, isVirtual name = false → s.resolver.ShowsFile name) ∧
      ∀ name other, isVirtual name = false → isVirtual other = false →
        (s.resolver.displayName name = s.resolver.displayName other ↔
          s.resolver.path name = s.resolver.path other) := by
  have hwell := wellFormed_of_reached h
    (wellFormed_new hroot (Path.isProper_ofString root) home defaults settings disk)
  have hshows := fun name (hname : isVirtual name = false) => showsFile_displayName hwell hname
  refine ⟨hshows, fun name other hname hother => ⟨fun hsame => ?_, fun hsame => ?_⟩⟩
  · rw [← (hshows name hname).path_eq, hsame, (hshows other hother).path_eq]
  · rw [displayName_eq hname, displayName_eq hother, hsame]

/-- A file beside the root whose path begins with the text of the root, and one below the root. -/
theorem showsFile_of_reached_beside :
    let start := Session.new none (Path.ofString "/proj/") {} {} MemoryFiles.empty.fileSystem
    let r := start.resolver
    (Path.ofString "/proj/").absolute = true ∧ Session.Reached start start ∧
      isVirtual "../projects//a.luau" = false ∧ isVirtual "./lib/../a.luau" = false ∧
      r.displayName "../projects//a.luau" = "/projects/a.luau" ∧
      r.displayName "./lib/../a.luau" = "a.luau" ∧
      r.ShowsFile "../projects//a.luau" ∧ r.ShowsFile "./lib/../a.luau" ∧
      (r.displayName "../projects//a.luau" = r.displayName "./lib/../a.luau" ↔
        r.path "../projects//a.luau" = r.path "./lib/../a.luau") := by
  intro start r
  have hroot : (Path.ofString "/proj/").absolute = true := by decide
  have hbeside : isVirtual "../projects//a.luau" = false := by decide
  have hbelow : isVirtual "./lib/../a.luau" = false := by decide
  obtain ⟨hshows, hsame⟩ := showsFile_of_reached hroot
    (.start : Session.Reached start start)
  exact ⟨hroot, .start, hbeside, hbelow, by decide +kernel, by decide +kernel,
    hshows _ hbeside, hshows _ hbelow, hsame _ _ hbeside hbelow⟩

end Resolver

end LuauWorkspace
