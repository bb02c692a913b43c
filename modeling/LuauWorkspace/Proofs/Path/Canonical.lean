import LuauWorkspace.Path.Home
import LuauWorkspace.Proofs.Text.Split

/-! # Canonical paths

A canonical path starts at the root and goes down by names only. Normal forms of absolute paths are
canonical, and two canonical paths name one file only when they are equal. -/

namespace LuauWorkspace

/-- Whether a text can be the name of an entry in a directory. -/
def IsEntryName (text : String) : Prop :=
  text ≠ "" ∧ text ≠ "." ∧ text ≠ ".." ∧ '/' ∉ text.toList

instance : DecidablePred IsEntryName := fun text =>
  inferInstanceAs (Decidable (text ≠ "" ∧ text ≠ "." ∧ text ≠ ".." ∧ '/' ∉ text.toList))

/-- A piece between separators stands for a name exactly when it can be one. -/
theorem ofPiece?_of_isEntryName {text : String} (h : IsEntryName text) :
    Segment.ofPiece? text.toList = some (.name text) := by
  obtain ⟨hempty, hdot, hdots, _⟩ := h
  rw [Segment.ofPiece?.eq_def]
  split
  · next heq => exact absurd (String.toList_inj.mp heq) hempty
  · next heq => exact absurd (String.toList_inj.mp heq) hdot
  · next heq => exact absurd (String.toList_inj.mp heq) hdots
  · rw [String.ofList_toList]

theorem isEntryName_of_ofPiece? {piece : List Char} {text : String}
    (h : Segment.ofPiece? piece = some (.name text)) (hpiece : '/' ∉ piece) :
    piece = text.toList ∧ IsEntryName text := by
  rw [Segment.ofPiece?.eq_def] at h
  split at h
  · cases h
  · cases h
  · cases h
  · next hempty hdot hdots =>
      obtain rfl : String.ofList piece = text := by simpa using h
      have hlist : (String.ofList piece).toList = piece := String.toList_ofList
      refine ⟨hlist.symm, ?_, ?_, ?_, hlist.symm ▸ hpiece⟩
      · intro he
        exact hempty (by simpa [he] using hlist.symm)
      · intro he
        exact hdot (by simpa [he] using hlist.symm)
      · intro he
        exact hdots (by simpa [he] using hlist.symm)

/-- A suffix of three characters or more makes the name of an entry of any text. -/
theorem isEntryName_append {text suffix : String} (htext : '/' ∉ text.toList)
    (hsuffix : '/' ∉ suffix.toList) (hlong : 2 < suffix.length) : IsEntryName (text ++ suffix) := by
  have hlength : 2 < (text ++ suffix).length := by
    rw [String.length_append]
    omega
  refine ⟨?_, ?_, ?_, ?_⟩
  · rintro h
    rw [h] at hlength
    exact absurd hlength (by decide)
  · rintro h
    rw [h] at hlength
    exact absurd hlength (by decide)
  · rintro h
    rw [h] at hlength
    exact absurd hlength (by decide)
  · simp [htext, hsuffix]

namespace Path

/-! ## Names on the way from the root -/

/-- The path that goes down from the root by names. -/
def ofNames (names : List String) : Path := ⟨true, names.map .name⟩

/-- A path made of names from the root down, each of which can be the name of an entry. -/
def IsCanonical (p : Path) : Prop := ∃ names, p = ofNames names ∧ ∀ name ∈ names, IsEntryName name

/-- A path whose names can be names of entries. All paths read from a text are such. -/
def IsProper (p : Path) : Prop := ∀ name, Segment.name name ∈ p.segments → IsEntryName name

theorem ofNames_injective {names names' : List String} (h : ofNames names = ofNames names') :
    names = names' := by
  have hmap : names.map Segment.name = names'.map Segment.name := congrArg Path.segments h
  exact List.map_injective_iff.mpr (fun _ _ heq => Segment.name.inj heq) hmap

theorem ofNames_ne_empty (names : List String) : ofNames names ≠ empty := by
  intro h
  exact Bool.noConfusion (congrArg Path.absolute h)

@[simp] theorem child_ofNames (names : List String) (entry : String) :
    (ofNames names).child entry = ofNames (names ++ [entry]) := by
  simp [child, ofNames]

theorem parent?_ofNames_concat (names : List String) (entry : String) :
    (ofNames (names ++ [entry])).parent? = some (ofNames names) := by
  simp [parent?, ofNames]

theorem fileName?_ofNames_concat (names : List String) (entry : String) :
    (ofNames (names ++ [entry])).fileName? = some entry := by
  simp [fileName?, ofNames]

/-! ## Folding -/

/-- The shape of a reversed list of segments that is already folded: names after steps up, and no
steps up at the root. -/
def IsFolded (absolute : Bool) (folded : List Segment) : Prop :=
  ∃ (names : List String) (ups : Nat),
    folded = names.map .name ++ List.replicate ups .up ∧ (absolute = true → ups = 0)

theorem isFolded_nil (absolute : Bool) : IsFolded absolute [] := ⟨[], 0, rfl, fun _ => rfl⟩

theorem isFolded_fold {absolute : Bool} {folded : List Segment} (h : IsFolded absolute folded)
    (segment : Segment) : IsFolded absolute (fold absolute folded segment) := by
  obtain ⟨names, ups, rfl, hups⟩ := h
  cases segment with
  | current => exact ⟨names, ups, rfl, hups⟩
  | name text => exact ⟨text :: names, ups, rfl, hups⟩
  | up =>
      cases names with
      | cons name names => exact ⟨names, ups, rfl, hups⟩
      | nil =>
          have hno : ∀ text rest, List.replicate ups Segment.up ≠ .name text :: rest := by
            intro text rest heq
            cases ups <;> simp [List.replicate_succ] at heq
          cases absolute with
          | true =>
              obtain rfl := hups rfl
              exact ⟨[], 0, rfl, fun _ => rfl⟩
          | false =>
              refine ⟨[], ups + 1, ?_, fun h => by simp at h⟩
              cases ups <;> rfl

theorem isFolded_foldl {absolute : Bool} {folded : List Segment} (h : IsFolded absolute folded)
    (segments : List Segment) : IsFolded absolute (segments.foldl (fold absolute) folded) := by
  induction segments generalizing folded with
  | nil => exact h
  | cons segment segments ih => exact ih (isFolded_fold h segment)

theorem foldl_fold_names (absolute : Bool) (folded : List Segment) (names : List String) :
    (names.map Segment.name).foldl (fold absolute) folded =
      (names.map Segment.name).reverse ++ folded := by
  induction names generalizing folded with
  | nil => rfl
  | cons name names ih =>
      rw [List.map_cons, List.foldl_cons, ih, List.reverse_cons, List.append_assoc]
      rfl

theorem foldl_fold_filter (absolute : Bool) (folded segments : List Segment) :
    (segments.filter (· ≠ .current)).foldl (fold absolute) folded =
      segments.foldl (fold absolute) folded := by
  induction segments generalizing folded with
  | nil => rfl
  | cons segment segments ih =>
      by_cases h : segment = .current
      · subst h
        rw [List.filter_cons_of_neg (by simp), ih]
        rfl
      · rw [List.filter_cons_of_pos (by simpa using h), List.foldl_cons, List.foldl_cons, ih]

/-- Folding at the root leaves names only. -/
theorem exists_names_of_isFolded {folded : List Segment} (h : IsFolded true folded) :
    ∃ names : List String, folded = names.map .name := by
  obtain ⟨names, ups, rfl, hups⟩ := h
  obtain rfl := hups rfl
  exact ⟨names, by simp⟩

theorem mem_fold {absolute : Bool} {folded : List Segment} {segment : Segment} {name : String}
    (h : Segment.name name ∈ fold absolute folded segment) :
    Segment.name name ∈ folded ∨ segment = .name name := by
  cases segment with
  | current => exact .inl h
  | name text =>
      rcases List.mem_cons.mp h with heq | hmem
      · exact .inr heq.symm
      · exact .inl hmem
  | up =>
      simp only [fold] at h
      split at h
      · exact .inl (List.mem_cons_of_mem _ h)
      · split at h
        · exact .inl h
        · exact .inl ((List.mem_cons.mp h).resolve_left (by simp))

/-- Folding invents no name. -/
theorem mem_foldl_fold {absolute : Bool} {folded segments : List Segment} {name : String}
    (h : Segment.name name ∈ segments.foldl (fold absolute) folded) :
    Segment.name name ∈ folded ∨ Segment.name name ∈ segments := by
  induction segments generalizing folded with
  | nil => exact .inl h
  | cons segment segments ih =>
      rcases ih h with hfold | hrest
      · rcases mem_fold hfold with hmem | rfl
        · exact .inl hmem
        · exact .inr List.mem_cons_self
      · exact .inr (List.mem_cons_of_mem segment hrest)

/-! ## Normal forms -/

theorem foldl_fold_ups {absolute : Bool} {ups : Nat} (h : absolute = true → ups = 0) :
    (List.replicate ups Segment.up).foldl (fold absolute) [] = List.replicate ups .up := by
  cases absolute with
  | true => rw [h rfl, List.replicate_zero, List.foldl_nil]
  | false =>
      induction ups with
      | zero => rfl
      | succ ups ih =>
          rw [List.replicate_succ', List.foldl_append, ih (by simp), ← List.replicate_succ']
          cases ups <;> rfl

/-- What is folded already folds to itself. -/
theorem foldl_fold_reverse {absolute : Bool} {folded : List Segment}
    (h : IsFolded absolute folded) : folded.reverse.foldl (fold absolute) [] = folded := by
  obtain ⟨names, ups, rfl, hups⟩ := h
  rw [List.reverse_append, List.reverse_replicate, ← List.map_reverse, List.foldl_append,
    foldl_fold_ups hups, foldl_fold_names, List.map_reverse, List.reverse_reverse]

/-- The normal form depends on nothing but what the segments fold to. -/
theorem normalize_congr {p q : Path} (habsolute : p.absolute = q.absolute)
    (hfold : p.segments.foldl (fold p.absolute) [] = q.segments.foldl (fold p.absolute) []) :
    p.normalize = q.normalize := by
  rw [normalize, normalize, folds, folds, hfold, habsolute]

theorem foldl_fold_normalize (p : Path) :
    p.normalize.segments.foldl (fold p.absolute) [] = p.segments.foldl (fold p.absolute) [] := by
  rw [normalize]
  split
  · next h =>
      rw [folds, List.reverse_eq_nil_iff] at h
      rw [h.1]
      rfl
  · exact foldl_fold_reverse (isFolded_foldl (isFolded_nil p.absolute) p.segments)

theorem isProper_normalize {p : Path} (hp : p.IsProper) : p.normalize.IsProper := by
  intro name hmem
  rw [normalize] at hmem
  split at hmem
  · exact absurd hmem (by simp [here])
  · rcases mem_foldl_fold (List.mem_reverse.mp hmem) with hnil | hseg
    · cases hnil
    · exact hp name hseg

theorem normalize_normalize (p : Path) : p.normalize.normalize = p.normalize := by
  have habsolute := absolute_normalize p
  exact normalize_congr habsolute (by rw [habsolute, foldl_fold_normalize])

theorem absolute_join_of_relative {p : Path} (hp : p.absolute = false) (base : Path) :
    (base.join p).absolute = base.absolute := by
  rw [join, if_neg (by simp [hp])]
  split
  · next h => rw [h, hp, empty]
  · rfl

/-- A relative path is folded on top of its base. -/
theorem foldl_fold_join {p : Path} (hp : p.absolute = false) (base : Path) :
    (base.join p).segments.foldl (fold base.absolute) [] =
      p.segments.foldl (fold base.absolute) (base.segments.foldl (fold base.absolute) []) := by
  rw [join, if_neg (by simp [hp])]
  split
  · next h => rw [h, empty, List.foldl_nil]
  · rw [List.foldl_append, foldl_fold_filter]

/-- What is joined to a path may as well be joined to its normal form. -/
theorem normalize_normalize_join (base p : Path) :
    (base.normalize.join p).normalize = (base.join p).normalize := by
  cases hp : p.absolute with
  | true => rw [join, join, if_pos hp, if_pos hp]
  | false =>
      have habsolute := absolute_normalize base
      refine normalize_congr ?_ ?_
      · rw [absolute_join_of_relative hp, absolute_join_of_relative hp, habsolute]
      · rw [absolute_join_of_relative hp, foldl_fold_join hp, habsolute, foldl_fold_normalize,
          foldl_fold_join hp]

theorem absoluteIn_normalize (base p : Path) : absoluteIn base.normalize p = absoluteIn base p :=
  normalize_normalize_join base p

/-! ## Normal forms of absolute paths -/

/-- What an absolute path folds to, as names from the root down. -/
theorem exists_names_of_absolute {p : Path} (h : p.absolute = true) :
    ∃ names : List String, p.normalize = ofNames names ∧
      p.segments.foldl (fold true) [] = (names.map .name).reverse := by
  obtain ⟨names, hnames⟩ :=
    exists_names_of_isFolded (isFolded_foldl (isFolded_nil true) p.segments)
  refine ⟨names.reverse, ?_, by rw [hnames, List.map_reverse, List.reverse_reverse]⟩
  simp [normalize, folds, h, hnames, ofNames]

theorem isCanonical_normalize {p : Path} (h : p.absolute = true) (hp : p.IsProper) :
    p.normalize.IsCanonical := by
  obtain ⟨names, hnorm, -⟩ := exists_names_of_absolute h
  have hproper := isProper_normalize hp
  rw [hnorm] at hproper
  exact ⟨names, hnorm, fun name hname => hproper name (List.mem_map_of_mem hname)⟩

theorem normalize_ofNames (names : List String) : (ofNames names).normalize = ofNames names := by
  simp [normalize, folds, ofNames, foldl_fold_names]

theorem IsCanonical.normalize_eq {p : Path} (h : p.IsCanonical) : p.normalize = p := by
  obtain ⟨names, rfl, _⟩ := h
  exact normalize_ofNames names

theorem IsCanonical.absolute_eq {p : Path} (h : p.IsCanonical) : p.absolute = true := by
  obtain ⟨names, rfl, _⟩ := h
  rfl

theorem IsCanonical.absoluteIn_eq {p : Path} (h : p.IsCanonical) (base : Path) :
    absoluteIn base p = p := by
  rw [absoluteIn, join, if_pos h.absolute_eq, h.normalize_eq]

/-- A relative path is folded on top of the names of its base. -/
theorem absoluteIn_ofNames {p : Path} (h : p.absolute = false) (names : List String) :
    ∃ names' : List String, absoluteIn (ofNames names) p = ofNames names' ∧
      p.segments.foldl (fold true) (names.map .name).reverse = (names'.map .name).reverse := by
  obtain ⟨names', hnorm, hfold⟩ :=
    exists_names_of_absolute (p := (ofNames names).join p) (absolute_join_of_relative h _)
  have hbase : (ofNames names).segments.foldl (fold true) [] = (names.map .name).reverse := by
    rw [ofNames, foldl_fold_names, List.append_nil]
  have hjoin := foldl_fold_join h (ofNames names)
  refine ⟨names', hnorm, ?_⟩
  rw [← hfold, ← hbase]
  exact hjoin.symm

theorem IsCanonical.isProper {p : Path} (h : p.IsCanonical) : p.IsProper := by
  obtain ⟨names, rfl, hnames⟩ := h
  intro name hmem
  obtain ⟨text, htext, heq⟩ := List.mem_map.mp hmem
  exact Segment.name.inj heq ▸ hnames text htext

theorem isProper_join {base p : Path} (hb : base.IsProper) (hp : p.IsProper) :
    (base.join p).IsProper := by
  intro name hmem
  rw [join] at hmem
  split at hmem
  · exact hp name hmem
  · split at hmem
    · exact hp name hmem
    · rcases List.mem_append.mp hmem with hmem | hmem
      · exact hb name hmem
      · exact hp name (List.mem_filter.mp hmem).1

theorem absolute_join {base : Path} (hb : base.absolute = true) (p : Path) :
    (base.join p).absolute = true := by
  rw [join]
  split
  · next h => exact h
  · rw [if_neg (fun h => by simp [h, empty] at hb)]
    exact hb

/-- Segments none of which is `..` take nothing away. -/
theorem exists_added_foldl_fold (absolute : Bool) {segments : List Segment}
    (h : .up ∉ segments) (folded : List Segment) :
    ∃ added, segments.foldl (fold absolute) folded = added ++ folded := by
  induction segments generalizing folded with
  | nil => exact ⟨[], rfl⟩
  | cons segment segments ih =>
      rw [List.mem_cons, not_or] at h
      obtain ⟨added, hadded⟩ := ih h.2 (fold absolute folded segment)
      rw [List.foldl_cons, hadded]
      cases segment with
      | current => exact ⟨added, rfl⟩
      | up => exact absurd rfl h.1
      | name text => exact ⟨added ++ [.name text], by simp [fold]⟩

/-- What is taken under a base without going up lies at or below the base. -/
theorem startsWith_absoluteIn {base p : Path} (hb : base.absolute = true)
    (hp : p.absolute = false) (hup : .up ∉ p.segments) :
    (absoluteIn base p).startsWith base.normalize = true := by
  obtain ⟨names, hnormal, -⟩ := exists_names_of_absolute hb
  obtain ⟨names', hresult, hfold⟩ := absoluteIn_ofNames hp names
  obtain ⟨added, hadded⟩ := exists_added_foldl_fold true hup (names.map Segment.name).reverse
  have hnames : names'.map Segment.name = names.map Segment.name ++ added.reverse := by
    rw [← List.reverse_inj, ← hfold, hadded, List.reverse_append, List.reverse_reverse]
  rw [← absoluteIn_normalize, hnormal, hresult, startsWith, Bool.or_eq_true,
    Bool.and_eq_true]
  refine .inr ⟨rfl, ?_⟩
  rw [List.isPrefixOf_iff_prefix, ofNames, ofNames, hnames]
  exact List.prefix_append _ _

theorem isCanonical_absoluteIn {base p : Path} (hb : base.IsCanonical) (hp : p.IsProper) :
    (absoluteIn base p).IsCanonical :=
  isCanonical_normalize (absolute_join hb.absolute_eq p) (isProper_join hb.isProper hp)

theorem IsCanonical.child {p : Path} (h : p.IsCanonical) {entry : String}
    (he : IsEntryName entry) : (p.child entry).IsCanonical := by
  obtain ⟨names, rfl, hnames⟩ := h
  refine ⟨names ++ [entry], child_ofNames names entry, ?_⟩
  intro name hname
  rcases List.mem_append.mp hname with hname | hname
  · exact hnames name hname
  · exact List.mem_singleton.mp hname ▸ he

theorem IsCanonical.parent {p parent : Path} (h : p.IsCanonical) (hp : p.parent? = some parent) :
    parent.IsCanonical := by
  obtain ⟨names, rfl, hnames⟩ := h
  rw [parent?, Option.ite_none_left_eq_some] at hp
  obtain ⟨_, hp⟩ := hp
  refine ⟨names.dropLast, ?_, fun name hname =>
    hnames name ((List.dropLast_sublist names).subset hname)⟩
  rw [← Option.some.inj hp]
  simp [ofNames, List.map_dropLast]

end Path

end LuauWorkspace
