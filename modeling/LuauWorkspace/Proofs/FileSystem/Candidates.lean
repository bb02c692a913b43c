import LuauWorkspace.Proofs.Path.Text
import LuauWorkspace.Resolver.Resolution

/-! # The files that may be loaded for a path

The candidates for a path are the path itself, the `init` files inside it and the path with an
extension. All of them are canonical when the path is. -/

namespace LuauWorkspace.FileSystem

/-- A name with the extension of a script is the name of an entry. -/
theorem isEntryName_extended {name extension : String} (hname : '/' ∉ name.toList)
    (h : extension ∈ Path.luauExtensions) : IsEntryName (name ++ ("." ++ extension)) := by
  rcases List.mem_cons.mp h with rfl | h
  · exact isEntryName_append hname (by decide) (by decide)
  · obtain rfl := List.mem_singleton.mp h
    exact isEntryName_append hname (by decide) (by decide)

theorem initFiles_ofNames (names : List String) :
    initFiles (Path.ofNames names) =
      Path.luauExtensions.map fun extension =>
        Path.ofNames (names ++ ["init" ++ ("." ++ extension)]) := by
  simp only [initFiles, Path.child_ofNames, ← String.append_assoc]
  rfl

theorem extendedFiles_ofNames {names : List String} {last : String}
    (h : ∀ name ∈ names, IsEntryName name) (hlast : '/' ∉ last.toList) :
    extendedFiles (Path.ofNames (names ++ [last])) =
      Path.luauExtensions.map fun extension =>
        Path.ofNames (names ++ [last ++ ("." ++ extension)]) := by
  apply List.map_congr_left
  intro extension hextension
  rw [String.append_assoc]
  exact Path.ofString_append h (isEntryName_extended hlast hextension)

theorem extendedFiles_root :
    extendedFiles Path.root =
      Path.luauExtensions.map fun extension => Path.ofNames ["." ++ extension] := rfl

theorem isCanonical_of_mem_initFiles {path file : Path} (h : path.IsCanonical)
    (hmem : file ∈ initFiles path) : file.IsCanonical := by
  obtain ⟨extension, hextension, rfl⟩ := List.mem_map.mp hmem
  apply h.child
  rw [show "init." = "init" ++ "." from rfl, String.append_assoc]
  exact isEntryName_extended (by decide) hextension

theorem isCanonical_of_mem_extendedFiles {path file : Path} (h : path.IsCanonical)
    (hmem : file ∈ extendedFiles path) : file.IsCanonical := by
  obtain ⟨names, rfl, hnames⟩ := h
  rcases List.eq_nil_or_concat names with rfl | ⟨front, last, rfl⟩
  · obtain ⟨extension, hextension, rfl⟩ := List.mem_map.mp (extendedFiles_root ▸ hmem)
    refine ⟨_, rfl, ?_⟩
    intro name hname
    obtain rfl := List.mem_singleton.mp hname
    exact isEntryName_extended (by decide : '/' ∉ "".toList) hextension
  · rw [List.concat_eq_append] at hmem hnames
    have hfront : ∀ name ∈ front, IsEntryName name :=
      fun name hname => hnames name (List.mem_append_left _ hname)
    have hlast : '/' ∉ last.toList := (hnames last (by simp)).2.2.2
    rw [extendedFiles_ofNames hfront hlast] at hmem
    obtain ⟨extension, hextension, rfl⟩ := List.mem_map.mp hmem
    refine ⟨_, rfl, ?_⟩
    intro name hname
    rcases List.mem_append.mp hname with hname | hname
    · exact hfront name hname
    · obtain rfl := List.mem_singleton.mp hname
      exact isEntryName_extended hlast hextension

/-- What is loaded for a path is a file: the path itself, an `init` file inside it or the path with
an extension. -/
theorem moduleFile?_cases {files : FileSystem} {path file : Path}
    (h : files.moduleFile? path = some file) :
    files.isFile file = true ∧ (file = path ∨
      (files.isDirectory path = true ∧ file ∈ initFiles path) ∨ file ∈ extendedFiles path) := by
  simp only [moduleFile?, Option.orElse_eq_orElse, Option.orElse_eq_or] at h
  split at h
  · next hisFile =>
      obtain rfl := Option.some.inj h
      exact ⟨hisFile, .inl rfl⟩
  · rcases Option.or_eq_some_iff.mp h with hinside | ⟨-, hbeside⟩
    · split at hinside
      · next hdirectory =>
          exact ⟨List.find?_some hinside,
            .inr (.inl ⟨hdirectory, List.mem_of_find?_eq_some hinside⟩)⟩
      · cases hinside
    · exact ⟨List.find?_some hbeside, .inr (.inr (List.mem_of_find?_eq_some hbeside))⟩

theorem isCanonical_moduleFile? {files : FileSystem} {path file : Path} (h : path.IsCanonical)
    (hfile : files.moduleFile? path = some file) :
    file.IsCanonical ∧ files.isFile file = true := by
  obtain ⟨hisFile, rfl | ⟨-, hinside⟩ | hbeside⟩ := moduleFile?_cases hfile
  · exact ⟨h, hisFile⟩
  · exact ⟨isCanonical_of_mem_initFiles h hinside, hisFile⟩
  · exact ⟨isCanonical_of_mem_extendedFiles h hbeside, hisFile⟩

end LuauWorkspace.FileSystem
