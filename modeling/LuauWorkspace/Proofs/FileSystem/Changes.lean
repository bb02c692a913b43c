import LuauWorkspace.Proofs.Path.Canonical
import LuauWorkspace.Proofs.Resolver.Session

/-! # Changes of a disk, by canonical paths

What a change of one file leaves alone, seen at canonical paths only, and what a disk is after a
file has been written. -/

namespace LuauWorkspace

namespace FileSystem

/-- All files are as they were, that at one path aside. -/
def ChangesOnly (before after : FileSystem) (path : Path) : Prop :=
  ∀ other : Path, other.IsCanonical → other ≠ path →
    after.isFile other = before.isFile other ∧ after.read other = before.read other

/-- A change at any spelling of a path is one at the path itself. -/
theorem ChangesAt.changesOnly {before after : FileSystem} {path : Path}
    (h : before.ChangesAt after path) : before.ChangesOnly after path.normalize := by
  intro other hother hne
  apply h
  rintro rfl
  exact hne hother.normalize_eq.symm

/-- A directory that is made when the file at a path is written: one that is above it and not
there. -/
def Makes (files : FileSystem) (path directory : Path) : Prop :=
  files.isDirectory directory = false ∧ directory ≠ path ∧ path.startsWith directory = true

/-- A file has been written, with the directories above it that were missing. -/
structure Writes (before after : FileSystem) (path : Path) (content : String) : Prop where
  isFile : after.isFile path = true
  read : after.read path = .ok content
  others : before.ChangesOnly after path
  isDirectory_iff : ∀ directory : Path, directory.IsCanonical →
    (after.isDirectory directory = true ↔
      before.isDirectory directory = true ∨ before.Makes path directory)

/-- Directories that a write does not make are there or not as before. -/
theorem Writes.isDirectory_eq {before after : FileSystem} {path directory : Path}
    {content : String} (h : before.Writes after path content) (hdirectory : directory.IsCanonical)
    (hmakes : ¬before.Makes path directory) :
    after.isDirectory directory = before.isDirectory directory := by
  rw [Bool.eq_iff_iff, h.isDirectory_iff directory hdirectory, or_iff_left hmakes]

end FileSystem

namespace MemoryFiles

theorem isDirectory_iff {memory : MemoryFiles} {directory : Path} :
    memory.fileSystem.isDirectory directory = true ↔
      ∃ entry ∈ memory.files, entry.1 ≠ directory ∧ entry.1.startsWith directory = true := by
  simp [fileSystem]

/-- A file in memory is written with the directories above it. -/
theorem writes_insert (memory : MemoryFiles) {path : Path} (hpath : path.IsCanonical)
    (content : String) :
    memory.fileSystem.Writes (memory.insert path (some content)).fileSystem path content := by
  have hfind : (memory.insert path (some content)).find? path = some (some content) :=
    (Register.find?_put ..).trans (if_pos rfl)
  refine ⟨?_, ?_, ?_, fun directory _ => ?_⟩
  · simp [fileSystem, hfind]
  · simp [fileSystem, hfind]
  · have hchanges := (changesAt_insert memory path (some content)).changesOnly
    rw [hpath.normalize_eq] at hchanges
    exact hchanges
  · rw [FileSystem.Makes, isDirectory_iff]
    constructor
    · rintro ⟨entry, hmem, hne, hbelow⟩
      by_cases hthere : memory.fileSystem.isDirectory directory = true
      · exact .inl hthere
      · rcases List.mem_cons.mp hmem with rfl | hmem
        · exact .inr ⟨Bool.eq_false_iff.mpr hthere, hne.symm, hbelow⟩
        · exact .inl (isDirectory_iff.mpr ⟨entry, List.mem_of_mem_filter hmem, hne, hbelow⟩)
    · rintro (hthere | ⟨-, hne, hbelow⟩)
      · obtain ⟨entry, hmem, hne, hbelow⟩ := isDirectory_iff.mp hthere
        by_cases hentry : entry.1 = path
        · exact ⟨(path, some content), List.mem_cons_self, hentry ▸ hne, hentry ▸ hbelow⟩
        · have hkept : entry ∈ (memory.erase path).files :=
            List.mem_filter.mpr ⟨hmem, by simpa using hentry⟩
          exact ⟨entry, List.mem_cons_of_mem _ hkept, hne, hbelow⟩
      · exact ⟨(path, some content), List.mem_cons_self, hne.symm, hbelow⟩

end MemoryFiles

end LuauWorkspace
