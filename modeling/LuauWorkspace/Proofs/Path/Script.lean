import LuauWorkspace.Path.Script
import LuauWorkspace.Proofs.Path.Canonical
import Mathlib.Data.List.Basic

/-! # File names with extensions

A name with an extension is cut back into the two, and taking a path under a base keeps its file
name. -/

namespace LuauWorkspace

theorem Text.splitLast_eq_none {cut : Char} {text : List Char} (h : cut ∉ text) :
    splitLast cut text = none := by
  induction text with
  | nil => rfl
  | cons c rest ih =>
      obtain ⟨hne, hrest⟩ := List.ne_and_not_mem_of_not_mem_cons h
      simp [splitLast, ih hrest, hne.symm]

theorem Text.splitLast_append {cut : Char} {after : List Char} (h : cut ∉ after)
    (before : List Char) : splitLast cut (before ++ cut :: after) = some (before, after) := by
  induction before with
  | nil => simp [splitLast, splitLast_eq_none h]
  | cons c before ih => simp [splitLast, ih]

namespace Path

theorem not_mem_luauExtensions : ∀ extension ∈ luauExtensions, '.' ∉ extension.toList := by decide

/-! ## Extensions -/

theorem toList_extended (name extension : String) :
    (name ++ ("." ++ extension)).toList = name.toList ++ '.' :: extension.toList := by simp

/-- The same text is not made of different names and extensions. -/
theorem extended_injective {name name' extension extension' : String}
    (h : extension ∈ luauExtensions) (h' : extension' ∈ luauExtensions)
    (heq : name ++ ("." ++ extension) = name' ++ ("." ++ extension')) :
    name = name' ∧ extension = extension' := by
  have hsplit := Text.splitLast_append (not_mem_luauExtensions extension h) name.toList
  rw [← toList_extended, heq, toList_extended,
    Text.splitLast_append (not_mem_luauExtensions extension' h')] at hsplit
  obtain ⟨hname, hextension⟩ := Prod.mk.inj (Option.some.inj hsplit)
  exact ⟨String.toList_inj.mp hname.symm, String.toList_inj.mp hextension.symm⟩

theorem splitName_extended {name extension : String} (hname : name ≠ "")
    (h : extension ∈ luauExtensions) :
    splitName (name ++ ("." ++ extension)) = (name, some extension) := by
  rw [splitName, toList_extended, Text.splitLast_append (not_mem_luauExtensions extension h)]
  cases hlist : name.toList with
  | nil => exact absurd (String.toList_inj.mp hlist) hname
  | cons c rest =>
      simp only
      rw [← hlist, String.ofList_toList, String.ofList_toList]

/-- A script is an `init` file by its name without the extension. -/
theorem isInit_of_fileName? {p : Path} {name extension : String} (hname : name ≠ "")
    (h : extension ∈ luauExtensions) (hp : p.fileName? = some (name ++ ("." ++ extension))) :
    p.isInit = (name == "init") := by
  have hscript : p.isScript = true := by
    rw [isScript, extension?, hp, Option.bind_some, splitName_extended hname h]
    exact List.contains_iff_mem.mpr h
  have hstem : p.stem? = some name := by
    rw [stem?, hp, Option.map_some, splitName_extended hname h]
  rw [isInit, hscript, hstem, Bool.true_and]
  rfl

/-! ## File names of paths that are taken under a base -/

theorem segments_of_fileName? {p : Path} {name : String} (h : p.fileName? = some name) :
    ∃ front, p.segments = front ++ [.name name] := by
  rw [fileName?] at h
  split at h
  · next text hlast =>
      obtain rfl := Option.some.inj h
      exact ⟨_, (List.dropLast_append_getLast? _ hlast).symm⟩
  · cases h

theorem fileName?_of_segments {p : Path} {front : List Segment} {name : String}
    (h : p.segments = front ++ [.name name]) : p.fileName? = some name := by
  rw [fileName?, h, List.getLast?_concat]

theorem fileName?_normalize {p : Path} {name : String} (h : p.fileName? = some name) :
    p.normalize.fileName? = some name := by
  obtain ⟨front, hsegments⟩ := segments_of_fileName? h
  have hfolds : folds p.absolute p.segments =
      (front.foldl (fold p.absolute) []).reverse ++ [.name name] := by
    rw [folds, hsegments, List.foldl_append]
    simp [fold]
  have hnormal : p.normalize = ⟨p.absolute, folds p.absolute p.segments⟩ := by
    rw [normalize, if_neg (by rw [hfolds]; simp)]
  exact fileName?_of_segments (by rw [hnormal, hfolds])

theorem fileName?_join {base p : Path} {name : String} (h : p.fileName? = some name) :
    (base.join p).fileName? = some name := by
  obtain ⟨front, hsegments⟩ := segments_of_fileName? h
  rw [join]
  split
  · exact h
  · split
    · exact h
    · have hjoined : base.segments ++ p.segments.filter (· ≠ .current) =
          (base.segments ++ front.filter (· ≠ .current)) ++ [.name name] := by
        rw [hsegments, List.filter_append, List.append_assoc]
        rfl
      exact fileName?_of_segments hjoined

theorem fileName?_absoluteIn (base : Path) {p : Path} {name : String}
    (h : p.fileName? = some name) :
    (absoluteIn base p).fileName? = some name :=
  fileName?_normalize (fileName?_join h)

end Path

end LuauWorkspace
