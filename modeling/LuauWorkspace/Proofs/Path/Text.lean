import LuauWorkspace.Proofs.Path.Canonical
import Mathlib.Data.List.Induction

/-! # Paths and their texts

The text of a canonical path reads back as the path. -/

namespace LuauWorkspace.Path

/-! ## Reading -/

/-- The segments that the pieces of a text stand for. -/
def segmentsOfText (text : List Char) : List Segment :=
  (Text.splitOn (· == '/') text).filterMap Segment.ofPiece?

/-- The `.` that opens a relative path, which is the only one that counts. -/
def opening (text : List Char) : List Segment :=
  if (Text.splitOn (· == '/') text).head? = some ['.'] then [.current] else []

theorem ofChars_eq (text : List Char) :
    ofChars text = ⟨text.head? == some '/', opening text ++ segmentsOfText text⟩ := by
  rw [ofChars, opening, segmentsOfText]
  split
  · next pieces heq =>
      have hrelative : (text.head? == some '/') = false := by
        refine beq_eq_false_iff_ne.mpr fun hslash => ?_
        obtain ⟨rest, rfl⟩ := List.head?_eq_some_iff.mp hslash
        cases heq
      rw [heq, hrelative]
      rfl
  · next hpieces =>
      have hhead : (Text.splitOn (· == '/') text).head? ≠ some ['.'] := fun hhead => by
        obtain ⟨pieces, heq⟩ := List.head?_eq_some_iff.mp hhead
        exact hpieces pieces heq
      rw [if_neg hhead, List.nil_append]

/-- Reading a text keeps its segments, and a `.` in front of them. -/
theorem segments_ofChars (text : List Char) :
    (ofChars text).segments = segmentsOfText text ∨
      (ofChars text).segments = .current :: segmentsOfText text := by
  rw [ofChars_eq, opening]
  split
  · exact .inr rfl
  · exact .inl rfl

theorem absolute_ofChars (text : List Char) :
    (ofChars text).absolute = (text.head? == some '/') := by
  rw [ofChars_eq]

theorem absolute_ofString (text : String) :
    (ofString text).absolute = (text.toList.head? == some '/') :=
  absolute_ofChars text.toList

/-- A `.` in front makes no difference to what a text folds to. -/
theorem foldl_fold_ofString (absolute : Bool) (folded : List Segment) (text : String) :
    (ofString text).segments.foldl (fold absolute) folded =
      (segmentsOfText text.toList).foldl (fold absolute) folded := by
  rcases segments_ofChars text.toList with h | h
  · rw [ofString, h]
  · rw [ofString, h]
    rfl

theorem isProper_ofString (text : String) : (ofString text).IsProper := by
  intro name hmem
  have hname : Segment.name name ∈ segmentsOfText text.toList := by
    rcases segments_ofChars text.toList with h | h
    · exact h ▸ hmem
    · rw [ofString, h] at hmem
      exact (List.mem_cons.mp hmem).resolve_left (by simp)
  obtain ⟨piece, hpiece, hof⟩ := List.mem_filterMap.mp hname
  refine (isEntryName_of_ofPiece? hof ?_).2
  intro hslash
  simpa using Text.not_isCut_of_mem_splitOn hpiece hslash

/-- The path of a text that starts at the root. -/
theorem ofChars_cons_slash (text : List Char) :
    ofChars ('/' :: text) = ⟨true, segmentsOfText ('/' :: text)⟩ := by
  have hopening : opening ('/' :: text) = [] := by
    rw [opening, Text.splitOn_cons (by rfl), if_neg (by simp)]
  rw [ofChars_eq, hopening]
  rfl

/-- A text whose first piece stands for a segment spells a relative path. -/
theorem ofChars_of_splitOn {text first : List Char} {pieces : List (List Char)}
    (hpieces : Text.splitOn (· == '/') text = first :: pieces)
    (hfirst : Segment.ofPiece? first ≠ none) : ofChars text = ⟨false, segmentsOfText text⟩ := by
  have hrelative : (text.head? == some '/') = false := by
    refine beq_eq_false_iff_ne.mpr fun hslash => ?_
    obtain ⟨rest, rfl⟩ := List.head?_eq_some_iff.mp hslash
    rw [Text.splitOn_cons (by rfl)] at hpieces
    exact hfirst ((List.cons.inj hpieces).1 ▸ rfl)
  have hopening : opening text = [] := by
    refine if_neg fun hdot => hfirst ?_
    rw [hpieces, List.head?_cons, Option.some.injEq] at hdot
    rw [hdot]
    rfl
  rw [ofChars_eq, hopening, hrelative, List.nil_append]

/-- A path that starts at the root and goes on by `..` and by names of entries. -/
structure IsRooted (p : Path) : Prop where
  absolute : p.absolute = true
  proper : p.IsProper
  not_current : .current ∉ p.segments

theorem current_not_mem_segmentsOfText (text : List Char) : .current ∉ segmentsOfText text := by
  intro hcurrent
  obtain ⟨piece, -, hpiece⟩ := List.mem_filterMap.mp hcurrent
  rw [Segment.ofPiece?.eq_def] at hpiece
  split at hpiece <;> cases hpiece

/-- Texts that start at the root read as such paths. -/
theorem isRooted_ofString {text : String} (h : (ofString text).absolute = true) :
    (ofString text).IsRooted := by
  refine ⟨h, isProper_ofString text, ?_⟩
  rw [absolute_ofString, beq_iff_eq] at h
  obtain ⟨rest, hrest⟩ := List.head?_eq_some_iff.mp h
  rw [ofString, hrest, ofChars_cons_slash]
  exact current_not_mem_segmentsOfText _

theorem IsCanonical.isRooted {p : Path} (h : p.IsCanonical) : p.IsRooted := by
  refine ⟨h.absolute_eq, h.isProper, ?_⟩
  obtain ⟨names, rfl, -⟩ := h
  simp [ofNames]

theorem segmentsOfText_append_cons (front back : List Char) :
    segmentsOfText (front ++ '/' :: back) = segmentsOfText front ++ segmentsOfText back := by
  rw [segmentsOfText, Text.splitOn_append_cons (by rfl), List.filterMap_append]
  rfl

theorem segmentsOfText_of_isEntryName {text : String} (h : IsEntryName text) :
    segmentsOfText text.toList = [.name text] := by
  rw [segmentsOfText, Text.splitOn_of_not_mem h.2.2.2]
  simp [ofPiece?_of_isEntryName h]

theorem segmentsOfText_append_replicate (text : List Char) (n : Nat) :
    segmentsOfText (text ++ List.replicate n '/') = segmentsOfText text := by
  cases n with
  | zero => rw [List.replicate_zero, List.append_nil]
  | succ n =>
      rw [List.replicate_succ, segmentsOfText_append_cons]
      have hvoid : segmentsOfText (List.replicate n '/') = [] := by
        rw [segmentsOfText, Text.splitOn_replicate (by rfl)]
        simp [List.filterMap_replicate, Segment.ofPiece?]
      rw [hvoid, List.append_nil]

/-- The name after the last separator is the file name, whatever stands before it. -/
theorem fileName?_ofString {text name : String} {front : List Char} {n : Nat}
    (hname : IsEntryName name)
    (htext : text.toList = front ++ '/' :: (name.toList ++ List.replicate n '/')) :
    (ofString text).fileName? = some name := by
  have hseg : segmentsOfText text.toList = segmentsOfText front ++ [.name name] := by
    rw [htext, segmentsOfText_append_cons, segmentsOfText_append_replicate,
      segmentsOfText_of_isEntryName hname]
  have hlast : (ofString text).segments.getLast? = some (.name name) := by
    rcases segments_ofChars text.toList with h | h
    · rw [ofString, h, hseg, List.getLast?_concat]
    · rw [ofString, h, hseg, ← List.cons_append, List.getLast?_concat]
  rw [fileName?, hlast]

/-! ## Writing -/

/-- The characters of segments, each after a separator. -/
def spelled (segments : List Segment) : List Char :=
  segments.flatMap fun segment => '/' :: segment.toString.toList

theorem spelled_append (segments segments' : List Segment) :
    spelled (segments ++ segments') = spelled segments ++ spelled segments' :=
  List.flatMap_append

theorem spelled_name (name : String) : spelled [.name name] = '/' :: name.toList := by
  simp [spelled, Segment.toString]

theorem spelled_eq_intercalate {segments : List Segment} (hne : segments ≠ []) :
    spelled segments = '/' :: ("/".intercalate (segments.map Segment.toString)).toList := by
  have hsep : "/".toList = ['/'] := rfl
  rw [String.toList_intercalate, hsep]
  induction segments with
  | nil => exact absurd rfl hne
  | cons first rest ih =>
      cases rest with
      | nil => simp [spelled]
      | cons next rest =>
          rw [List.map_cons, List.map_cons] at ih
          rw [List.map_cons, List.map_cons, List.map_cons, List.map_cons,
            List.intercalate_cons_cons, List.append_assoc, List.singleton_append, ← ih (by simp)]
          simp [spelled]

theorem toList_toString_of_absolute {p : Path} (h : p.absolute = true) (hne : p.segments ≠ []) :
    p.toString.toList = spelled p.segments := by
  rw [toString, if_pos h, String.toList_append, spelled_eq_intercalate hne]
  rfl

theorem toList_toString_of_relative {p : Path} (h : p.absolute = false) (hne : p.segments ≠ []) :
    '/' :: p.toString.toList = spelled p.segments := by
  rw [toString, h, if_neg Bool.false_ne_true, String.empty_append, spelled_eq_intercalate hne]

theorem ofPiece?_toString {segment : Segment} (hcurrent : segment ≠ .current)
    (hproper : ∀ name, segment = .name name → IsEntryName name) :
    Segment.ofPiece? segment.toString.toList = some segment := by
  cases segment with
  | current => exact absurd rfl hcurrent
  | up => rfl
  | name text => exact ofPiece?_of_isEntryName (hproper text rfl)

theorem slash_not_mem_toString {segment : Segment}
    (hproper : ∀ name, segment = .name name → IsEntryName name) :
    '/' ∉ segment.toString.toList := by
  cases segment with
  | current => decide
  | up => decide
  | name text => exact (hproper text rfl).2.2.2

/-- The separators before the segments cut them apart again. -/
theorem splitOn_spelled {segments : List Segment}
    (hproper : ∀ name, Segment.name name ∈ segments → IsEntryName name) :
    Text.splitOn (· == '/') (spelled segments) =
      [] :: segments.map fun segment => segment.toString.toList := by
  induction segments using List.reverseRecOn with
  | nil => rfl
  | append_singleton front segment ih =>
      have hfront := ih fun name hmem => hproper name (List.mem_append_left _ hmem)
      have hone : Text.splitOn (· == '/') segment.toString.toList =
          [segment.toString.toList] :=
        Text.splitOn_of_not_mem (slash_not_mem_toString fun name h => hproper name (by simp [h]))
      have hlast : spelled [segment] = '/' :: segment.toString.toList := by simp [spelled]
      rw [spelled_append, hlast, Text.splitOn_append_cons (by rfl), hfront, hone, List.map_append]
      rfl

theorem filterMap_ofPiece?_toString {segments : List Segment} (hcurrent : .current ∉ segments)
    (hproper : ∀ name, Segment.name name ∈ segments → IsEntryName name) :
    (segments.map fun segment => segment.toString.toList).filterMap Segment.ofPiece? =
      segments := by
  rw [List.filterMap_map]
  calc segments.filterMap (Segment.ofPiece? ∘ fun segment => segment.toString.toList)
    _ = segments.filterMap some := by
        refine List.filterMap_congr fun segment hmem => ofPiece?_toString ?_ ?_
        · rintro rfl
          exact hcurrent hmem
        · rintro name rfl
          exact hproper name hmem
    _ = segments := List.filterMap_some

theorem segmentsOfText_spelled {segments : List Segment} (hcurrent : .current ∉ segments)
    (hproper : ∀ name, Segment.name name ∈ segments → IsEntryName name) :
    segmentsOfText (spelled segments) = segments := by
  rw [segmentsOfText, splitOn_spelled hproper, List.filterMap_cons_none (by rfl),
    filterMap_ofPiece?_toString hcurrent hproper]

/-! ## Reading back -/

/-- A text made of segments reads as the path of these; separators at its end do not count. -/
theorem IsRooted.ofString_of_toList {p : Path} (h : p.IsRooted) (hne : p.segments ≠ [])
    {text : String} {n : Nat} (htext : text.toList = spelled p.segments ++ List.replicate n '/') :
    ofString text = p := by
  obtain ⟨absolute, segments⟩ := p
  obtain rfl : absolute = true := h.absolute
  cases segments with
  | nil => exact absurd rfl hne
  | cons first rest =>
      have hsegments := segmentsOfText_spelled h.not_current h.proper
      rw [← segmentsOfText_append_replicate _ n, ← htext] at hsegments
      have hslash : text.toList = '/' :: text.toList.tail := by
        rw [htext]
        rfl
      rw [hslash] at hsegments
      rw [ofString, hslash, ofChars_cons_slash, hsegments]

/-- What is written after the name of an entry becomes part of the name. -/
theorem ofString_append {names : List String} (h : ∀ name ∈ names, IsEntryName name)
    {last suffix : String} (hlast : IsEntryName (last ++ suffix)) :
    ofString ((ofNames (names ++ [last])).toString ++ suffix) =
      ofNames (names ++ [last ++ suffix]) := by
  have hnames : ∀ name ∈ names ++ [last ++ suffix], IsEntryName name := by
    intro name hname
    rcases List.mem_append.mp hname with hname | hname
    · exact h name hname
    · exact List.mem_singleton.mp hname ▸ hlast
  have hpath : (ofNames (names ++ [last ++ suffix])).IsCanonical := ⟨_, rfl, hnames⟩
  apply hpath.isRooted.ofString_of_toList (n := 0) (by simp [ofNames])
  rw [String.toList_append, toList_toString_of_absolute rfl (by simp [ofNames]),
    List.replicate_zero, List.append_nil]
  simp [spelled, Segment.toString, ofNames]

theorem ofString_toString_ofNames {names : List String} (h : ∀ name ∈ names, IsEntryName name) :
    ofString (ofNames names).toString = ofNames names := by
  by_cases hne : names = []
  · subst hne
    rfl
  · have hpath : (ofNames names).IsCanonical := ⟨names, rfl, h⟩
    have hsegments : (ofNames names).segments ≠ [] := by simpa [ofNames] using hne
    apply hpath.isRooted.ofString_of_toList (n := 0) hsegments
    rw [toList_toString_of_absolute rfl hsegments, List.replicate_zero, List.append_nil]

theorem IsCanonical.ofString_toString {p : Path} (h : p.IsCanonical) :
    ofString p.toString = p := by
  obtain ⟨names, rfl, hnames⟩ := h
  exact ofString_toString_ofNames hnames

/-- The pieces of the text of a relative path are the spellings of its segments. -/
theorem splitOn_toString_of_relative {p : Path} (h : p.absolute = false) (hne : p.segments ≠ [])
    (hproper : p.IsProper) :
    Text.splitOn (· == '/') p.toString.toList =
      p.segments.map fun segment => segment.toString.toList := by
  have hpieces := splitOn_spelled hproper
  rw [← toList_toString_of_relative h hne, Text.splitOn_cons (by rfl)] at hpieces
  exact (List.cons.inj hpieces).2

/-- A relative path without a `.` is read back from its text. -/
theorem ofString_toString_of_relative {p : Path} (h : p.absolute = false) (hne : p.segments ≠ [])
    (hcurrent : .current ∉ p.segments) (hproper : p.IsProper) : ofString p.toString = p := by
  have hpieces := splitOn_toString_of_relative h hne hproper
  have hread := filterMap_ofPiece?_toString hcurrent hproper
  obtain ⟨absolute, segments⟩ := p
  obtain rfl : absolute = false := h
  cases segments with
  | nil => exact absurd rfl hne
  | cons first rest =>
      have hfirst : Segment.ofPiece? first.toString.toList = some first := by
        refine ofPiece?_toString ?_ ?_
        · rintro rfl
          exact hcurrent List.mem_cons_self
        · rintro name rfl
          exact hproper name List.mem_cons_self
      rw [ofString, ofChars_of_splitOn hpieces (by simp [hfirst]), segmentsOfText, hpieces, hread]

end LuauWorkspace.Path
