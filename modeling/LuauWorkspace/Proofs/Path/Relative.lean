import LuauWorkspace.Path.Relative
import LuauWorkspace.Proofs.Path.Text

/-! # The rest of a canonical path

What is left of a canonical path below another one are the names that come after those of the base.
Taken under the base, they make the path again. -/

namespace LuauWorkspace.Path

variable {base rest names : List String}

/-- The relative path that goes down by names. -/
def ofRest (names : List String) : Path := ⟨false, names.map .name⟩

theorem isProper_ofRest (h : ∀ name ∈ names, IsEntryName name) : (ofRest names).IsProper := by
  intro name hmem
  obtain ⟨text, htext, heq⟩ := List.mem_map.mp hmem
  exact Segment.name.inj heq ▸ h text htext

theorem splitOn_toString_ofRest (h : ∀ name ∈ names, IsEntryName name) (hne : names ≠ []) :
    Text.splitOn (· == '/') (ofRest names).toString.toList = names.map String.toList := by
  rw [splitOn_toString_of_relative rfl (by simpa [ofRest] using hne) (isProper_ofRest h), ofRest,
    List.map_map]
  rfl

theorem ofString_toString_ofRest (h : ∀ name ∈ names, IsEntryName name) (hne : names ≠ []) :
    ofString (ofRest names).toString = ofRest names :=
  ofString_toString_of_relative rfl (by simpa [ofRest] using hne) (by simp [ofRest])
    (isProper_ofRest h)

theorem absoluteIn_ofRest (base rest : List String) :
    absoluteIn (ofNames base) (ofRest rest) = ofNames (base ++ rest) := by
  have hkept : (rest.map Segment.name).filter (· ≠ .current) = rest.map .name := by
    refine List.filter_eq_self.mpr fun segment hmem => ?_
    obtain ⟨name, -, rfl⟩ := List.mem_map.mp hmem
    rfl
  have hjoin : (ofNames base).join (ofRest rest) = ofNames (base ++ rest) := by
    rw [join, if_neg (by simp [ofRest]), if_neg (ofNames_ne_empty base), ofRest, hkept, ofNames,
      ofNames, List.map_append]
  rw [absoluteIn, hjoin, normalize_ofNames]

/-! ## Taking pieces off -/

theorem isVoid_toList {name : String} (h : IsEntryName name) : isVoid name.toList = false := by
  obtain ⟨hempty, hdot, -, -⟩ := h
  rw [isVoid, Bool.or_eq_false_iff, List.isEmpty_eq_false_iff, beq_eq_false_iff_ne]
  exact ⟨fun heq => hempty (String.toList_inj.mp heq), fun heq => hdot (String.toList_inj.mp heq)⟩

theorem dropWhile_isVoid (h : ∀ name ∈ names, IsEntryName name) :
    (names.map String.toList).dropWhile isVoid = names.map String.toList := by
  cases names with
  | nil => rfl
  | cons first rest =>
      rw [List.map_cons, List.dropWhile_cons_of_neg]
      simp [isVoid_toList (h first List.mem_cons_self)]

theorem trimPieces_names (h : ∀ name ∈ names, IsEntryName name) :
    trimPieces (names.map String.toList) = names.map String.toList := by
  rw [trimPieces, ← List.map_reverse,
    dropWhile_isVoid fun name hname => h name (List.mem_reverse.mp hname), ← List.map_reverse,
    List.reverse_reverse]

theorem dropPieces_names (h : ∀ name ∈ base, IsEntryName name) (rest : List String) :
    dropPieces base.length ((base ++ rest).map String.toList) = rest.map String.toList := by
  induction base with
  | nil => rw [List.length_nil, dropPieces, List.nil_append]
  | cons first base ih =>
      rw [List.length_cons, List.cons_append, List.map_cons, dropPieces,
        isVoid_toList (h first List.mem_cons_self), if_neg Bool.false_ne_true]
      exact ih fun name hname => h name (List.mem_cons_of_mem first hname)

theorem splitOn_toString_ofNames (h : ∀ name ∈ names, IsEntryName name) (hne : names ≠ []) :
    Text.splitOn (· == '/') (ofNames names).toString.toList =
      [] :: names.map String.toList := by
  have hproper : (ofNames names).IsProper := IsCanonical.isProper ⟨names, rfl, h⟩
  rw [toList_toString_of_absolute rfl (by simpa [ofNames] using hne), splitOn_spelled hproper,
    ofNames, List.map_map]
  rfl

/-- What is left of a path behind its base. The separator at the front is void. -/
theorem dropWhile_dropPieces (h : ∀ name ∈ base ++ rest, IsEntryName name) :
    (dropPieces base.length
        (Text.splitOn (· == '/') (ofNames (base ++ rest)).toString.toList)).dropWhile isVoid =
      rest.map String.toList := by
  have hbase : ∀ name ∈ base, IsEntryName name := fun name hname =>
    h name (List.mem_append_left rest hname)
  have hrest := dropWhile_isVoid fun name hname => h name (List.mem_append_right base hname)
  by_cases hne : base ++ rest = []
  · obtain ⟨rfl, rfl⟩ := List.append_eq_nil_iff.mp hne
    rw [List.length_nil, dropPieces]
    rfl
  · rw [splitOn_toString_ofNames h hne]
    cases base with
    | nil =>
        rw [List.length_nil, dropPieces, List.dropWhile_cons_of_pos (by rfl), List.nil_append,
          hrest]
    | cons first base =>
        rw [List.length_cons, dropPieces, if_pos (by rfl), ← List.length_cons,
          dropPieces_names hbase, hrest]

theorem joinPieces_names (h : ∀ name ∈ names, IsEntryName name) :
    joinPieces (names.map String.toList) = (ofRest names).toString := by
  by_cases hne : names = []
  · subst hne
    rfl
  · rw [joinPieces, ← splitOn_toString_ofRest h hne, Text.joinWith_splitOn, String.ofList_toList]

theorem toString_ofRest_eq_empty (h : ∀ name ∈ names, IsEntryName name)
    (hempty : (ofRest names).toString = "") : names = [] := by
  by_contra hne
  have hback := ofString_toString_ofRest h hne
  rw [hempty] at hback
  have hsegments : names.map Segment.name = [] := congrArg Path.segments hback.symm
  exact hne (List.map_eq_nil_iff.mp hsegments)

/-! ## The rest -/

theorem startsWith_ofNames_iff :
    (ofNames names).startsWith (ofNames base) = true ↔ ∃ rest, names = base ++ rest := by
  have hstarts : (ofNames names).startsWith (ofNames base) = true ↔
      base.map Segment.name <+: names.map .name := by
    rw [startsWith, decide_eq_false (ofNames_ne_empty base), Bool.false_or, Bool.and_eq_true,
      List.isPrefixOf_iff_prefix]
    exact and_iff_right rfl
  rw [hstarts]
  constructor
  · rintro ⟨tail, htail⟩
    obtain ⟨front, rest, hnames, hfront, -⟩ := List.append_eq_map_iff.mp htail
    have hbase : front = base :=
      List.map_injective_iff.mpr (fun _ _ heq => Segment.name.inj heq) hfront
    exact ⟨rest, hbase ▸ hnames⟩
  · rintro ⟨rest, rfl⟩
    rw [List.map_append]
    exact List.prefix_append _ _

/-- The segments of a canonical base are counted off the front of a path that begins with them. -/
theorem below?_of_startsWith (hbase : ∀ name ∈ base, IsEntryName name)
    (hnames : ∀ name ∈ names, IsEntryName name)
    (h : (ofNames names).startsWith (ofNames base) = true) :
    below? (ofNames names).toString (ofNames base).toString =
      let pieces := Text.splitOn (· == '/') (ofNames names).toString.toList
      let rest := joinPieces (trimPieces ((dropPieces base.length pieces).dropWhile isVoid))
      if rest = "" then none else some rest := by
  rw [below?, ofString_toString_ofNames hbase, ofString_toString_ofNames hnames, if_pos h,
    if_neg (ofNames_ne_empty base)]
  cases base with
  | nil => rfl
  | cons first base =>
      simp only [ofNames, List.map_cons, List.length_cons, List.length_map]
      rfl

/-- A path that begins with all of its base has the names that follow as its rest, if there are
any. -/
theorem below?_append (h : ∀ name ∈ base ++ rest, IsEntryName name) :
    below? (ofNames (base ++ rest)).toString (ofNames base).toString =
      if rest = [] then none else some (ofRest rest).toString := by
  have hbase : ∀ name ∈ base, IsEntryName name := fun name hname =>
    h name (List.mem_append_left rest hname)
  have hrest : ∀ name ∈ rest, IsEntryName name := fun name hname =>
    h name (List.mem_append_right base hname)
  have hempty : (ofRest rest).toString = "" ↔ rest = [] := by
    refine ⟨toString_ofRest_eq_empty hrest, ?_⟩
    rintro rfl
    rfl
  rw [below?_of_startsWith hbase h (startsWith_ofNames_iff.mpr ⟨rest, rfl⟩)]
  simp only [dropWhile_dropPieces h, trimPieces_names hrest, joinPieces_names hrest, hempty]

theorem below?_eq_none (hbase : ∀ name ∈ base, IsEntryName name)
    (hnames : ∀ name ∈ names, IsEntryName name) (h : ∀ rest, names ≠ base ++ rest) :
    below? (ofNames names).toString (ofNames base).toString = none := by
  rw [below?, ofString_toString_ofNames hbase, ofString_toString_ofNames hnames, if_neg]
  rw [startsWith_ofNames_iff]
  exact fun ⟨rest, hrest⟩ => h rest hrest

end LuauWorkspace.Path
