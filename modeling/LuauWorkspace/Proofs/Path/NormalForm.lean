import LuauWorkspace.Proofs.Path.Text

/-! # Normal forms and their texts

The normal form of a path is written in one way only: without a superfluous `.` or separator, and
with `..` nowhere but at the beginning of a relative path. What is written reads back as the normal
form. -/

namespace LuauWorkspace.Path

/-! ## Segments -/

/-- A path in normal form that is not `.`: names of entries after steps up, of which there are none
at the root. -/
structure IsNormal (p : Path) : Prop where
  steps : ∃ (ups : Nat) (names : List String),
    p.segments = List.replicate ups .up ++ names.map .name ∧ (p.absolute = true → ups = 0)
  proper : p.IsProper
  ne_empty : p ≠ empty

theorem isNormal_normalize {p : Path} (hp : p.IsProper) :
    p.normalize = here ∨ p.normalize.IsNormal := by
  have hproper := isProper_normalize hp
  obtain ⟨names, ups, hfold, hups⟩ := isFolded_foldl (isFolded_nil p.absolute) p.segments
  have hfolds : folds p.absolute p.segments =
      List.replicate ups .up ++ names.reverse.map .name := by
    rw [folds, hfold, List.reverse_append, List.reverse_replicate, List.map_reverse]
  rw [normalize] at hproper ⊢
  split at hproper
  · next h => exact .inl (if_pos h)
  · next h =>
      rw [if_neg h]
      refine .inr ⟨⟨ups, names.reverse, hfolds, hups⟩, hproper, fun hempty => h ?_⟩
      obtain ⟨habsolute, hsegments⟩ := Path.mk.inj hempty
      exact ⟨hsegments, habsolute⟩

namespace IsNormal

variable {p : Path}

theorem not_current (h : p.IsNormal) : .current ∉ p.segments := by
  obtain ⟨ups, names, hsegments, -⟩ := h.steps
  simp [hsegments]

theorem segments_ne_nil (h : p.IsNormal) (hrelative : p.absolute = false) : p.segments ≠ [] := by
  intro hnil
  apply h.ne_empty
  obtain ⟨absolute, segments⟩ := p
  rw [empty, Path.mk.injEq]
  exact ⟨hrelative, hnil⟩

/-- The text of a path in normal form reads as the path. -/
theorem ofString_toString (h : p.IsNormal) : ofString p.toString = p := by
  cases habsolute : p.absolute with
  | false =>
      exact ofString_toString_of_relative habsolute (h.segments_ne_nil habsolute) h.not_current
        h.proper
  | true =>
      obtain ⟨ups, names, hsegments, hups⟩ := h.steps
      have hcanonical : p.IsCanonical := by
        rw [hups habsolute, List.replicate_zero, List.nil_append] at hsegments
        refine ⟨names, ?_, fun name hname => h.proper name ?_⟩
        · rw [ofNames, ← habsolute, ← hsegments]
        · rw [hsegments]
          exact List.mem_map_of_mem hname
      exact hcanonical.ofString_toString

end IsNormal

/-! ## Texts -/

/-- The texts between the separators of a path. -/
def pieces (text : String) : List (List Char) := Text.splitOn (· == '/') text.toList

/-- The text of a path that spells nothing in vain. -/
structure IsTidy (text : String) : Prop where
  /-- A `.` stands alone. -/
  current : ['.'] ∈ pieces text → text = "."
  /-- There is no `..` below the root. -/
  up_relative : ['.', '.'] ∈ pieces text → text.toList.head? ≠ some '/'
  /-- Nothing stands before a `..` but others. -/
  up_first : ∀ front back, pieces text = front ++ ['.', '.'] :: back →
    ∀ piece ∈ front, piece = ['.', '.']
  /-- No separator follows another. -/
  single : ∀ front back, text.toList ≠ front ++ '/' :: '/' :: back
  /-- No separator stands at the end, but for the root. -/
  last : ∀ front, text.toList = front ++ ['/'] → text = "/"

/-- A text is tidy when its pieces are: a `.` stands alone, none but the first is empty, and those
that are `..` come first. -/
theorem isTidy_of_pieces {text : String} (hcurrent : ['.'] ∈ pieces text → text = ".")
    (hempty : [] ∉ (pieces text).tail)
    (hup : ∀ front back, pieces text = front ++ ['.', '.'] :: back →
      ∀ piece ∈ front, piece = ['.', '.']) : IsTidy text := by
  -- An empty piece after a first one is left where two separators meet and at the end.
  have hcut : ∀ front back, text.toList = front ++ '/' :: back →
      [] ∉ Text.splitOn (· == '/') back := by
    intro front back htext hmem
    rw [pieces, htext, Text.splitOn_append_cons (by rfl),
      List.tail_append_of_ne_nil (Text.splitOn_ne_nil _ _)] at hempty
    exact hempty (List.mem_append_right _ hmem)
  refine ⟨hcurrent, fun hmem hslash => ?_, hup, fun front back htext => ?_, fun front htext => ?_⟩
  · obtain ⟨rest, hrest⟩ := List.head?_eq_some_iff.mp hslash
    have hpieces : pieces text = [] :: Text.splitOn (· == '/') rest := by
      rw [pieces, hrest, Text.splitOn_cons (by rfl)]
    obtain ⟨front, back, hsplit⟩ := List.append_of_mem hmem
    cases front with
    | nil => exact absurd (List.cons.inj (hpieces.symm.trans hsplit)).1 (by decide)
    | cons first front =>
        have hfirst := (List.cons.inj (hpieces.symm.trans hsplit)).1
        exact absurd (hfirst.trans (hup _ back hsplit first List.mem_cons_self)) (by decide)
  · refine hcut front ('/' :: back) htext ?_
    rw [Text.splitOn_cons (by rfl)]
    exact List.mem_cons_self
  · exact absurd (List.mem_singleton_self _) (hcut front [] htext)

theorem eq_of_replicate_append {α : Type} {n : Nat} {a : α} {rest front back : List α}
    (hrest : a ∉ rest) (h : List.replicate n a ++ rest = front ++ a :: back) :
    ∀ x ∈ front, x = a := by
  intro x hx
  rcases List.append_eq_append_iff.mp h with ⟨middle, -, hmiddle⟩ | ⟨middle, hmiddle, -⟩
  · exact absurd (hmiddle ▸ List.mem_append_right middle List.mem_cons_self) hrest
  · exact List.eq_of_mem_replicate (hmiddle ▸ List.mem_append_left middle hx)

/-- What is written between separators for a name is neither empty nor made of dots. -/
theorem of_mem_map_toList {names : List String} (h : ∀ name ∈ names, IsEntryName name)
    {piece : List Char} (hpiece : piece ∈ names.map String.toList) :
    piece ≠ [] ∧ piece ≠ ['.'] ∧ piece ≠ ['.', '.'] := by
  obtain ⟨name, hname, rfl⟩ := List.mem_map.mp hpiece
  obtain ⟨hempty, hdot, hdots, -⟩ := h name hname
  refine ⟨fun heq => hempty ?_, fun heq => hdot ?_, fun heq => hdots ?_⟩
  · exact String.toList_inj.mp heq
  · exact String.toList_inj.mp heq
  · exact String.toList_inj.mp heq

/-- The pieces of a relative path: steps up, and names. -/
theorem isTidy_of_steps {text : String} {ups : Nat} {names : List String}
    (hnames : ∀ name ∈ names, IsEntryName name)
    (hpieces : pieces text = List.replicate ups ['.', '.'] ++ names.map String.toList) :
    IsTidy text := by
  have hsteps : ∀ piece ∈ pieces text, piece ≠ [] ∧ piece ≠ ['.'] := by
    intro piece hpiece
    rw [hpieces] at hpiece
    rcases List.mem_append.mp hpiece with hup | hname
    · rw [List.eq_of_mem_replicate hup]
      decide
    · exact ⟨(of_mem_map_toList hnames hname).1, (of_mem_map_toList hnames hname).2.1⟩
  refine isTidy_of_pieces ?_ ?_ fun front back hsplit => ?_
  · exact fun hmem => absurd rfl (hsteps _ hmem).2
  · exact fun hmem => (hsteps _ (List.mem_of_mem_tail hmem)).1 rfl
  · exact eq_of_replicate_append (fun hmem => (of_mem_map_toList hnames hmem).2.2 rfl)
      (hpieces.symm.trans hsplit)

/-- The pieces of an absolute path: one without a text before the root, and names. -/
theorem isTidy_of_names {text : String} {names : List String}
    (hnames : ∀ name ∈ names, IsEntryName name)
    (hpieces : pieces text = [] :: names.map String.toList) : IsTidy text := by
  have hsteps : ∀ piece ∈ pieces text, piece ≠ ['.'] ∧ piece ≠ ['.', '.'] := by
    intro piece hpiece
    rw [hpieces] at hpiece
    rcases List.mem_cons.mp hpiece with rfl | hname
    · decide
    · exact (of_mem_map_toList hnames hname).2
  refine isTidy_of_pieces ?_ ?_ fun front back hsplit => ?_
  · exact fun hmem => absurd rfl (hsteps _ hmem).1
  · rw [hpieces]
    exact fun hmem => (of_mem_map_toList hnames hmem).1 rfl
  · exact absurd rfl (hsteps _ (List.mem_iff_append.mpr ⟨front, back, hsplit⟩)).2

theorem isTidy_here : IsTidy here.toString := by
  have hpieces : ['.', '.'] ∉ pieces here.toString := by decide
  exact isTidy_of_pieces (fun _ => rfl) (by decide) fun front back hsplit =>
    absurd (List.mem_iff_append.mpr ⟨front, back, hsplit⟩) hpieces

theorem isTidy_root : IsTidy root.toString := by
  have htext : root.toString.toList = ['/'] := rfl
  have hpieces : ['.', '.'] ∉ pieces root.toString := by decide
  refine ⟨fun hmem => absurd hmem (by decide), fun hmem => absurd hmem hpieces,
    fun front back hsplit => ?_, fun front back hdouble => ?_, fun front h => rfl⟩
  · exact absurd (List.mem_iff_append.mpr ⟨front, back, hsplit⟩) hpieces
  · have hlength := congrArg List.length (htext.symm.trans hdouble)
    simp only [List.length_cons, List.length_nil, List.length_append] at hlength
    omega

theorem IsNormal.isTidy {p : Path} (h : p.IsNormal) : IsTidy p.toString := by
  obtain ⟨ups, names, hsegments, hups⟩ := h.steps
  have hnames : ∀ name ∈ names, IsEntryName name := by
    refine fun name hname => h.proper name ?_
    rw [hsegments]
    exact List.mem_append_right _ (List.mem_map_of_mem hname)
  have hspelled : (p.segments.map fun segment => segment.toString.toList) =
      List.replicate ups ['.', '.'] ++ names.map String.toList := by
    simp [hsegments, Segment.toString]
  cases habsolute : p.absolute with
  | false =>
      apply isTidy_of_steps hnames
      rw [pieces, splitOn_toString_of_relative habsolute (h.segments_ne_nil habsolute) h.proper,
        hspelled]
  | true =>
      by_cases hne : p.segments = []
      · have hroot : p = root := by
          obtain ⟨absolute, segments⟩ := p
          exact Path.mk.injEq .. ▸ ⟨habsolute, hne⟩
        exact hroot ▸ isTidy_root
      · apply isTidy_of_names hnames
        rw [pieces, toList_toString_of_absolute habsolute hne, splitOn_spelled h.proper, hspelled,
          hups habsolute, List.replicate_zero, List.nil_append]

/-! ## What a text spells -/

/-- What the normal form of the path that a text spells is like. -/
structure IsNormalForm (text : String) (normal : Path) : Prop where
  absolute_eq : normal.absolute = (ofString text).absolute
  tidy : IsTidy normal.toString
  reads : ofString normal.toString = normal
  idempotent : normal.normalize = normal
  join : ∀ p, (normal.join p).normalize = ((ofString text).join p).normalize

theorem isNormalForm_normalize (text : String) : IsNormalForm text (ofString text).normalize := by
  have hcases := isNormal_normalize (isProper_ofString text)
  refine ⟨absolute_normalize _, ?_, ?_, normalize_normalize _, normalize_normalize_join _⟩
  · rcases hcases with hhere | hnormal
    · exact hhere ▸ isTidy_here
    · exact hnormal.isTidy
  · rcases hcases with hhere | hnormal
    · exact hhere ▸ rfl
    · exact hnormal.ofString_toString

end LuauWorkspace.Path
