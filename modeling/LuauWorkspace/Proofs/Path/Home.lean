import LuauWorkspace.Path.Home
import LuauWorkspace.Proofs.Path.Text

/-! # What a written target leads to

A target that begins with `~` leads below the home directory where there is one. Any other target is
a path as it is written. -/

namespace LuauWorkspace

theorem isSeparator_iff {c : Char} : isSeparator c = true ↔ c = '/' ∨ c = '\\' := by
  simp [isSeparator]

namespace Path

variable {home : Option String} {target directory : String} {rest below : List Char} {path : Path}

/-! ## What separators leave -/

/-- `below` is `rest` without any of the separators at its beginning. -/
structure IsStripped (rest below : List Char) : Prop where
  separators : ∃ front, (∀ c ∈ front, c = '/' ∨ c = '\\') ∧ rest = front ++ below
  first : ∀ c, below.head? = some c → c ≠ '/' ∧ c ≠ '\\'

theorem isStripped_dropSeparators (rest : List Char) :
    IsStripped rest (dropSeparators rest) := by
  refine ⟨⟨rest.takeWhile isSeparator, fun c hc => ?_, ?_⟩, fun c hc => ?_⟩
  · exact isSeparator_iff.mp (List.all_eq_true.mp List.all_takeWhile c hc)
  · exact List.takeWhile_append_dropWhile.symm
  · have hnot := List.head?_dropWhile_not isSeparator rest
    rw [dropSeparators] at hc
    rw [hc] at hnot
    have hsides := mt isSeparator_iff.mpr (by simpa using hnot)
    exact not_or.mp hsides

theorem IsStripped.eq_dropSeparators (h : IsStripped rest below) :
    below = dropSeparators rest := by
  obtain ⟨⟨front, hfront, rfl⟩, hfirst⟩ := h
  have hkept : below.dropWhile isSeparator = below := by
    cases below with
    | nil => rfl
    | cons c tail =>
        have hc : ¬isSeparator c = true := by
          rw [isSeparator_iff, not_or]
          exact hfirst c rfl
        rw [List.dropWhile_cons_of_neg hc]
  rw [dropSeparators,
    List.dropWhile_append_of_pos fun c hc => isSeparator_iff.mpr (hfront c hc), hkept]

/-- Without separators in front a text reads as a relative path. -/
theorem IsStripped.absolute_eq (h : IsStripped rest below) :
    (ofString (String.ofList below)).absolute = false := by
  rw [absolute_ofString, String.toList_ofList, beq_eq_false_iff_ne]
  exact fun hslash => (h.first _ hslash).1 rfl

/-! ## Joining texts -/

theorem opening_append_cons (front back : List Char) :
    opening (front ++ '/' :: back) = opening front := by
  have hhead : (Text.splitOn (· == '/') front ++ Text.splitOn (· == '/') back).head? =
      (Text.splitOn (· == '/') front).head? :=
    List.head?_append_of_ne_nil _ (Text.splitOn_ne_nil _ _)
  rw [opening, Text.splitOn_append_cons (by rfl), hhead]
  rfl

theorem ofChars_ne_empty {text : List Char} (h : text ≠ []) : ofChars text ≠ empty := by
  intro hempty
  rw [ofChars_eq] at hempty
  injection hempty with habsolute hsegments
  obtain ⟨hopening, hnone⟩ := List.append_eq_nil_iff.mp hsegments
  cases text with
  | nil => exact h rfl
  | cons c rest =>
      have hc : (c == '/') = false := by simpa using habsolute
      have hnot : (Text.splitOn (· == '/') (c :: rest)).head? ≠ some ['.'] := by
        intro hdot
        rw [opening, if_pos hdot] at hopening
        cases hopening
      -- The first piece begins with `c` and is not `.`, so it stands for a segment.
      obtain ⟨piece, pieces, hpieces⟩ :
          ∃ piece pieces, Text.splitOn (· == '/') (c :: rest) = (c :: piece) :: pieces := by
        rw [Text.splitOn, hc]
        split
        · contradiction
        · split
          · exact ⟨_, _, rfl⟩
          · exact ⟨_, _, rfl⟩
      rw [hpieces, List.head?_cons] at hnot
      rw [segmentsOfText, hpieces, List.filterMap_eq_nil_iff] at hnone
      have hvoid := hnone (c :: piece) List.mem_cons_self
      rw [Segment.ofPiece?.eq_def] at hvoid
      split at hvoid
      · contradiction
      · next hdot => exact hnot (congrArg some hdot)
      · cases hvoid
      · cases hvoid

/-- A relative path under `base` adds its segments; a `.` in front of them does not count. -/
theorem join_ofChars {base : Path} {text : List Char} (hbase : base ≠ empty)
    (htext : text.head? ≠ some '/') :
    base.join (ofChars text) = ⟨base.absolute, base.segments ++ segmentsOfText text⟩ := by
  have hrelative : (ofChars text).absolute = false := by
    rw [absolute_ofChars, beq_eq_false_iff_ne]
    exact htext
  have hkept : (segmentsOfText text).filter (· ≠ .current) = segmentsOfText text :=
    List.filter_eq_self.mpr fun segment hsegment => by
      have hne : segment ≠ .current := fun heq =>
        current_not_mem_segmentsOfText text (heq ▸ hsegment)
      simpa using hne
  have hfilter : (ofChars text).segments.filter (· ≠ .current) = segmentsOfText text := by
    rcases segments_ofChars text with h | h
    · rw [h, hkept]
    · rw [h, List.filter_cons_of_neg (by simp), hkept]
  rw [join, if_neg (by simp [hrelative]), if_neg hbase, hfilter]

theorem ofChars_append_cons (front : List Char) {back : List Char}
    (hback : back.head? ≠ some '/') :
    ofChars (front ++ '/' :: back) = (ofChars (front ++ ['/'])).join (ofChars back) := by
  have hhead : (front ++ '/' :: back).head? = (front ++ ['/']).head? := by
    cases front with
    | nil => rfl
    | cons c front => rfl
  rw [join_ofChars (ofChars_ne_empty (by simp)) hback, ofChars_eq, ofChars_eq (front ++ ['/']),
    hhead, opening_append_cons, opening_append_cons, segmentsOfText_append_cons,
    segmentsOfText_append_cons, List.append_assoc, List.append_assoc]
  rfl

theorem ofChars_append_slash {text : List Char} (h : text ≠ []) :
    ofChars (text ++ ['/']) = ofChars text := by
  have hhead : (text ++ ['/']).head? = text.head? := List.head?_append_of_ne_nil _ h
  have hvoid : segmentsOfText [] = [] := rfl
  rw [ofChars_eq, ofChars_eq text, hhead, opening_append_cons, segmentsOfText_append_cons, hvoid,
    List.append_nil]

/-- Joining texts is joining what they read as. -/
theorem ofString_joinText {below : String} (h : (ofString below).absolute = false) :
    ofString (joinText directory below) = (ofString directory).join (ofString below) := by
  have hbelow : below.toList.head? ≠ some '/' := by
    rw [absolute_ofString, beq_eq_false_iff_ne] at h
    exact h
  rw [joinText]
  rcases List.eq_nil_or_concat directory.toList with hnil | ⟨front, last, hconcat⟩
  · obtain rfl : directory = "" := String.toList_inj.mp hnil
    rw [if_pos (by rfl), String.empty_append]
    exact (if_neg (by simp [h])).symm
  · rw [List.concat_eq_append] at hconcat
    rw [hconcat, List.getLast?_concat, Option.all_some]
    split
    · next hlast =>
        obtain rfl := beq_iff_eq.mp hlast
        have htext : (directory ++ below).toList = front ++ '/' :: below.toList := by
          rw [String.toList_append, hconcat, List.append_assoc, List.singleton_append]
        rw [ofString, htext, ofChars_append_cons front hbelow, ← hconcat]
        rfl
    · have hne : directory.toList ≠ [] := by simp [hconcat]
      have htext : (directory ++ "/" ++ below).toList =
          directory.toList ++ '/' :: below.toList := by
        rw [String.toList_append, String.toList_append, List.append_assoc]
        rfl
      rw [ofString, htext, ofChars_append_cons directory.toList hbelow, ofChars_append_slash hne]
      rfl

/-! ## Targets -/

/-- A target begins at the home directory: it begins with a `~`, after which there is a separator
or nothing. -/
structure BeginsAtHome (target : String) (rest : List Char) : Prop where
  text : target.toList = '~' :: rest
  boundary : ∀ c, rest.head? = some c → c = '/' ∨ c = '\\'

/-- What a target leads to when the home directory is `home`. -/
inductive Expands : Option String → String → Path → Prop where
  /-- The home directory stands for `~`, and what follows the separators after it is below. -/
  | home {directory target : String} {rest below : List Char}
      (hbegins : BeginsAtHome target rest) (hbelow : IsStripped rest below) :
      Expands (some directory) target ((ofString directory).join (ofString (String.ofList below)))
  /-- There is no home directory, so `~` is the name of an entry. -/
  | homeless {target : String} : Expands none target (ofString target)
  /-- The target begins with no `~`, or with one that is part of a name. -/
  | written {home : Option String} {target : String} (h : ∀ rest, ¬BeginsAtHome target rest) :
      Expands home target (ofString target)

theorem BeginsAtHome.all_isSeparator (h : BeginsAtHome target rest) :
    rest.head?.all isSeparator = true := by
  rw [Option.all_eq_true]
  exact fun c hc => isSeparator_iff.mpr (h.boundary c hc)

theorem withHome_of_begins (h : BeginsAtHome target rest) (directory : String) :
    withHome (some directory) target =
      joinText directory (String.ofList (dropSeparators rest)) := by
  rw [withHome.eq_def, h.text]
  exact if_pos h.all_isSeparator

theorem withHome_none (target : String) : withHome none target = target := by
  rw [withHome.eq_def]
  split
  · contradiction
  · rfl

theorem withHome_of_not_begins (h : ∀ rest, ¬BeginsAtHome target rest) (home : Option String) :
    withHome home target = target := by
  rw [withHome.eq_def]
  split
  · next rest directory htext =>
      rw [if_neg fun hall => h rest ⟨htext, fun c hc => ?_⟩]
      exact isSeparator_iff.mp ((Option.all_eq_true _ _).mp hall c hc)
  · rfl

/-- A target leads to the path that its text reads as once the home directory stands for `~`. -/
theorem expands_iff : Expands home target path ↔ path = ofString (withHome home target) := by
  constructor
  · rintro (⟨hbegins, hbelow⟩ | _ | h)
    · rw [withHome_of_begins hbegins, ← hbelow.eq_dropSeparators,
        ofString_joinText hbelow.absolute_eq]
    · rw [withHome_none]
    · rw [withHome_of_not_begins h]
  · rintro rfl
    by_cases h : ∃ rest, BeginsAtHome target rest
    · obtain ⟨rest, hbegins⟩ := h
      cases home with
      | none =>
          rw [withHome_none]
          exact .homeless
      | some directory =>
          have hbelow := isStripped_dropSeparators rest
          rw [withHome_of_begins hbegins, ofString_joinText hbelow.absolute_eq]
          exact .home hbegins hbelow
    · rw [not_exists] at h
      rw [withHome_of_not_begins h]
      exact .written h

theorem Expands.ofTarget_eq (h : Expands home target path) (base : Path) :
    ofTarget home base target = base.join path := by
  rw [ofTarget, ← expands_iff.mp h]

theorem exists_expands (home : Option String) (target : String) :
    ∃ path, Expands home target path :=
  ⟨_, expands_iff.mpr rfl⟩

/-- The text of a canonical path, taken for a target, names the path. -/
theorem IsCanonical.ofTarget_toString {p : Path} (h : p.IsCanonical) (home : Option String)
    (base : Path) : ofTarget home base p.toString = p := by
  have hslash : p.toString.toList = '/' :: p.toString.toList.tail := by
    rw [toString, if_pos h.absolute_eq, String.toList_append]
    rfl
  have hwritten : ∀ rest, ¬BeginsAtHome p.toString rest := fun rest hbegins => by
    have htext := hslash.symm.trans hbegins.text
    cases htext
  rw [(Expands.written hwritten).ofTarget_eq, h.ofString_toString, join, if_pos h.absolute_eq]

end Path

end LuauWorkspace
