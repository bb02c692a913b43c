import LuauWorkspace.Uri.Basic
import LuauWorkspace.Proofs.Path.Text
import LuauWorkspace.Proofs.Uri.Percent

/-! # Keys and the files they denote

A uri that shares its key with the uri of a file is spelled like that uri, separators at the end
aside, and denotes the same file. -/

namespace LuauWorkspace.Uri

/-- What holds of every uri that has been read or made from a path: the scheme ends at the first
colon, and a `file` uri has a host, which ends at the first separator. -/
structure WellFormed (uri : Uri) : Prop where
  scheme_end : ':' ∉ uri.scheme.toList
  file_host : uri.scheme = "file" → ∃ host, uri.authority = some host ∧ '/' ∉ host.toList

/-! ## Keys -/

theorem exists_trimSlashes (least : Nat) (text : List Char) :
    ∃ n, text = List.replicate n '/' ++ trimSlashes least text := by
  induction text with
  | nil => exact ⟨0, by simp [trimSlashes]⟩
  | cons c rest ih =>
      by_cases hc : c = '/'
      · subst hc
        by_cases hleast : least ≤ rest.length
        · obtain ⟨n, hn⟩ := ih
          refine ⟨n + 1, ?_⟩
          rw [trimSlashes, if_pos hleast, List.replicate_succ, List.cons_append, ← hn]
        · exact ⟨0, by rw [trimSlashes, if_neg hleast]; rfl⟩
      · refine ⟨0, ?_⟩
        rw [trimSlashes.eq_def]
        split
        · next heq => exact absurd (List.cons.inj heq).1 hc
        · rfl

/-- A key is the text of the uri without some separators at its end. -/
theorem exists_toString_eq (uri : Uri) :
    ∃ n, uri.toString.toList = uri.key.toList ++ List.replicate n '/' := by
  obtain ⟨n, hn⟩ := exists_trimSlashes
    (uri.toString.toList.length - uri.path.length + 1) uri.toString.toList.reverse
  refine ⟨n, ?_⟩
  rw [key, String.toList_ofList]
  have hrev := congrArg List.reverse hn
  rw [List.reverse_reverse, List.reverse_append, List.reverse_replicate] at hrev
  exact hrev

/-- A text that does not end in a separator is its own key. -/
theorem key_eq_toString {uri : Uri} {front : List Char} {last : Char}
    (h : uri.toString.toList = front ++ [last]) (hlast : last ≠ '/') : uri.key = uri.toString := by
  rw [key, h, List.reverse_append, List.reverse_singleton, List.singleton_append,
    trimSlashes.eq_def]
  split
  · next heq => exact absurd (List.cons.inj heq).1 hlast
  · rw [List.reverse_cons, List.reverse_reverse, ← h, String.ofList_toList]

/-! ## Uris of files -/

/-- The characters of the path of a uri made from a path below the root. -/
def encodedPath (segments : List Segment) : List Char :=
  (segments.map fun segment =>
    '/' :: Percent.encode Percent.inFileName segment.toString.toList).flatten

theorem encodedPath_append (segments segments' : List Segment) :
    encodedPath (segments ++ segments') = encodedPath segments ++ encodedPath segments' := by
  simp [encodedPath]

theorem ofPath?_eq_some {path : Path} {uri : Uri} (h : ofPath? path = some uri)
    (hne : path.segments ≠ []) :
    uri = ⟨"file", some "", String.ofList (encodedPath path.segments), none, none⟩ := by
  rw [ofPath?, Option.ite_none_right_eq_some] at h
  have huri := Option.some.inj h.2
  rw [if_neg (by simpa using hne)] at huri
  rw [← huri, encodedPath]

/-- Every absolute path has a uri. -/
theorem exists_ofPath?_eq {path : Path} (h : path.absolute = true) :
    ∃ uri, ofPath? path = some uri := by
  rw [ofPath?, if_pos h]
  exact ⟨_, rfl⟩

theorem wellFormed_of_ofPath? {path : Path} {uri : Uri} (h : ofPath? path = some uri) :
    uri.WellFormed := by
  rw [ofPath?, Option.ite_none_right_eq_some] at h
  rw [← Option.some.inj h.2]
  have hscheme : ':' ∉ "file".toList := by decide
  have hhost : '/' ∉ "".toList := by decide
  exact ⟨hscheme, fun _ => ⟨"", rfl, hhost⟩⟩

/-- The uri of a file has neither a query nor a fragment in its path. -/
theorem not_mem_encodedPath {c : Char} (h : c = '?' ∨ c = '#') (segments : List Segment) :
    c ∉ encodedPath segments := by
  intro hmem
  obtain ⟨piece, hpiece, hc⟩ := List.mem_flatten.mp hmem
  obtain ⟨segment, _, rfl⟩ := List.mem_map.mp hpiece
  rcases List.mem_cons.mp hc with rfl | hc
  · rcases h with h | h <;> exact absurd h (by decide)
  · rcases h with rfl | rfl
    · exact Percent.not_mem_encode (by rfl) (by decide) (by decide) _ hc
    · exact Percent.not_mem_encode (by rfl) (by decide) (by decide) _ hc

/-- The path of the uri of a file is decoded to the segments as they are. -/
theorem decode_encodedPath (segments : List Segment) (rest : List Char) :
    Percent.decode (encodedPath segments ++ rest) =
      (Path.spelled segments).flatMap String.utf8EncodeChar ++ Percent.decode rest := by
  induction segments with
  | nil => rfl
  | cons segment segments ih =>
      have hone : encodedPath (segment :: segments) ++ rest =
          '/' :: (Percent.encode Percent.inFileName segment.toString.toList ++
            (encodedPath segments ++ rest)) := by
        simp [encodedPath]
      rw [hone, Percent.decode_cons_of_ne (by decide), Percent.decode_encode (by rfl), ih]
      simp [Path.spelled]

/-! ## Sharing a key with a file -/

theorem exists_beforePath_eq (uri : Uri) :
    ∃ middle : String, uri.beforePath = uri.scheme ++ ":" ++ middle ∧
      ∀ authority, uri.authority = some authority → middle = "//" ++ authority := by
  rw [beforePath]
  cases uri.authority with
  | some authority => exact ⟨"//" ++ authority, rfl, fun _ h => Option.some.inj h ▸ rfl⟩
  | none => exact ⟨_, rfl, fun _ h => nomatch h⟩

/-- A well-formed uri spelled like the uri of a path, some separators at its end aside, has all its
parts from there. -/
theorem parts_of_toString {uri : Uri} (huri : uri.WellFormed) {path : List Char}
    (hstart : path.head? = some '/') (hquery : '?' ∉ path) (hfragment : '#' ∉ path)
    (h : uri.toString.toList = "file://".toList ++ path) :
    uri.scheme = "file" ∧ uri.path.toList = path := by
  obtain ⟨middle, hbefore, hmiddle⟩ := exists_beforePath_eq uri
  have htext : uri.scheme.toList ++ ':' ::
      (middle.toList ++ (uri.path.toList ++ uri.afterPath.toList)) =
        "file".toList ++ ':' :: ("//".toList ++ path) := by
    have hcolon : "file://".toList ++ path = "file".toList ++ ':' :: ("//".toList ++ path) := rfl
    rw [← hcolon, ← h, toString, hbefore]
    simp only [String.toList_append, List.append_assoc]
    rfl
  obtain ⟨hscheme, hrest⟩ := Text.append_cons_inj huri.scheme_end (by decide) htext
  have hscheme : uri.scheme = "file" := String.toList_inj.mp hscheme
  refine ⟨hscheme, ?_⟩
  obtain ⟨host, hauthority, hhost⟩ := huri.file_host hscheme
  rw [hmiddle host hauthority] at hrest
  simp only [String.toList_append, List.append_assoc, List.append_cancel_left_eq] at hrest
  -- The host would start where the path of the file starts, and it holds no separator.
  have hempty : host.toList = [] := by
    cases hlist : host.toList with
    | nil => rfl
    | cons c rest =>
        rw [hlist, List.cons_append] at hrest
        rw [← hrest, List.head?_cons, Option.some.injEq] at hstart
        rw [hlist, hstart] at hhost
        exact absurd List.mem_cons_self hhost
  rw [hempty, List.nil_append] at hrest
  have hafter : uri.afterPath.toList = [] := by
    have hnoquery : '?' ∉ uri.afterPath.toList := fun hmem =>
      hquery (hrest ▸ List.mem_append_right _ hmem)
    have hnofragment : '#' ∉ uri.afterPath.toList := fun hmem =>
      hfragment (hrest ▸ List.mem_append_right _ hmem)
    rw [afterPath] at hnoquery hnofragment ⊢
    cases hq : uri.query with
    | some query => simp [hq] at hnoquery
    | none =>
        cases hf : uri.fragment with
        | some fragment => simp [hf] at hnofragment
        | none => simp
  rw [hafter, List.append_nil] at hrest
  exact hrest

/-- A well-formed uri that shares its key with the uri of a file denotes a path spelled like that
of the file, separators at its end aside. -/
theorem filePath?_of_key_eq {uri fileUri : Uri} {path : Path} (huri : uri.WellFormed)
    (hfile : ofPath? path = some fileUri) (hne : path.segments ≠ [])
    (hkey : fileUri.key = fileUri.toString) (h : uri.key = fileUri.key) :
    ∃ n, uri.filePath? =
      some (String.ofList (Path.spelled path.segments ++ List.replicate n '/')) := by
  obtain ⟨n, hn⟩ := exists_toString_eq uri
  have hfileText : fileUri.toString.toList = "file://".toList ++ encodedPath path.segments := by
    rw [ofPath?_eq_some hfile hne]
    simp [toString, beforePath, afterPath]
  rw [h, hkey, hfileText, List.append_assoc] at hn
  have hhead : (encodedPath path.segments ++ List.replicate n '/').head? = some '/' := by
    cases hseg : path.segments with
    | nil => exact absurd hseg hne
    | cons segment segments => rfl
  have hnone : ∀ c, c = '?' ∨ c = '#' →
      c ∉ encodedPath path.segments ++ List.replicate n '/' := by
    intro c hc hmem
    rcases List.mem_append.mp hmem with hmem | hmem
    · exact not_mem_encodedPath hc _ hmem
    · obtain rfl := List.eq_of_mem_replicate hmem
      rcases hc with hc | hc <;> exact absurd hc (by decide)
  obtain ⟨hscheme, hpath⟩ := parts_of_toString huri hhead (hnone _ (.inl rfl))
    (hnone _ (.inr rfl)) hn
  refine ⟨n, ?_⟩
  rw [filePath?, if_pos hscheme, hpath]
  apply Percent.decodeText?_of_decode
  have hslashes : ∀ c ∈ List.replicate n '/', c ≠ '%' := by
    intro c hc
    rw [List.eq_of_mem_replicate hc]
    decide
  have hend := Percent.decode_append_of_forall_ne hslashes []
  rw [List.append_nil] at hend
  rw [decode_encodedPath, hend, Percent.decode, List.append_nil, List.flatMap_append]

/-! ## Keys of files -/

/-- The uri of a path does not end in a separator, unless the path is the root. -/
theorem key_of_ofPath? {path : Path} {uri : Uri} (hpath : path.IsRooted)
    (h : ofPath? path = some uri) : uri.key = uri.toString := by
  obtain ⟨absolute, segments⟩ := path
  obtain rfl : absolute = true := hpath.absolute
  rcases List.eq_nil_or_concat segments with rfl | ⟨front, segment, rfl⟩
  · obtain rfl := Option.some.inj h
    decide +kernel
  · rw [List.concat_eq_append] at hpath h
    have hsegment : segment.toString.toList ≠ [] := by
      cases segment with
      | current => exact absurd (by simp) hpath.not_current
      | up => decide
      | name name =>
          intro hnil
          have hname : IsEntryName name := hpath.proper name (by simp)
          exact hname.1 (String.toList_inj.mp hnil)
    -- The last character is one of the encoded segment, which holds no separator.
    have hencoded := Percent.encode_ne_nil Percent.inFileName hsegment
    have hslash : '/' ∉ Percent.encode Percent.inFileName segment.toString.toList :=
      Percent.not_mem_encode (by rfl) (by decide) (by decide) _
    have hpathText : encodedPath (front ++ [segment]) =
        encodedPath front ++ '/' :: Percent.encode Percent.inFileName segment.toString.toList := by
      simp [encodedPath]
    have htext : uri.toString.toList =
        ("file://".toList ++ encodedPath front ++
          '/' :: (Percent.encode Percent.inFileName segment.toString.toList).dropLast) ++
            [(Percent.encode Percent.inFileName segment.toString.toList).getLast hencoded] := by
      rw [ofPath?_eq_some h (by simp)]
      simp [toString, beforePath, afterPath, hpathText, List.dropLast_append_getLast]
    exact key_eq_toString htext (ne_of_mem_of_not_mem (List.getLast_mem hencoded) hslash)

/-- A uri denotes the path that its text, decoded, is read as. -/
def Denotes (uri : Uri) (path : Path) : Prop :=
  ∃ text, uri.filePath? = some text ∧ Path.ofString text = path

/-- A uri denotes one path at most. -/
theorem Denotes.eq {uri : Uri} {path other : Path} (h : uri.Denotes path)
    (hother : uri.Denotes other) : path = other := by
  obtain ⟨text, htext, hpath⟩ := h
  obtain ⟨text', htext', hother⟩ := hother
  obtain rfl := Option.some.inj (htext.symm.trans htext')
  exact hpath.symm.trans hother

/-- A well-formed uri that shares its key with the uri of a file denotes the file. -/
theorem denotes_of_key_eq {uri fileUri : Uri} {path : Path} (huri : uri.WellFormed)
    (hpath : path.IsRooted) (hfile : ofPath? path = some fileUri) (h : uri.key = fileUri.key) :
    uri.Denotes path := by
  have hkey := key_of_ofPath? hpath hfile
  by_cases hne : path.segments = []
  · -- The path of the uri consists of separators only.
    obtain rfl : path = Path.root := by rw [Path.root, ← hpath.absolute, ← hne]
    obtain ⟨n, hn⟩ := exists_toString_eq uri
    have hroot : fileUri.key.toList = "file://".toList ++ ['/'] := by
      obtain rfl := Option.some.inj hfile
      decide +kernel
    rw [h, hroot, List.append_assoc, List.singleton_append, ← List.replicate_succ] at hn
    have hnone : ∀ c, c ≠ '/' → c ∉ List.replicate (n + 1) '/' :=
      fun c hc hmem => hc (List.eq_of_mem_replicate hmem)
    obtain ⟨hscheme, htext⟩ := parts_of_toString huri rfl (hnone _ (by decide))
      (hnone _ (by decide)) hn
    refine ⟨String.ofList (List.replicate (n + 1) '/'), ?_, ?_⟩
    · have hplain : ∀ c ∈ List.replicate (n + 1) '/', c ≠ '%' := by
        rintro c hc rfl
        exact hnone _ (by decide) hc
      have hdecode := Percent.decode_append_of_forall_ne hplain []
      rw [filePath?, if_pos hscheme, htext]
      apply Percent.decodeText?_of_decode
      simpa [Percent.decode] using hdecode
    · have hvoid := Path.segmentsOfText_append_replicate [] (n + 1)
      rw [List.nil_append, List.replicate_succ] at hvoid
      rw [Path.ofString, String.toList_ofList, List.replicate_succ, Path.ofChars_cons_slash, hvoid]
      rfl
  · obtain ⟨n, hn⟩ := filePath?_of_key_eq huri hfile hne hkey h
    refine ⟨_, hn, hpath.ofString_of_toList (n := n) hne ?_⟩
    rw [String.toList_ofList]

/-- Uris of different paths have different keys. -/
theorem eq_of_key_eq {path other : Path} {uri otherUri : Uri} (hpath : path.IsRooted)
    (hother : other.IsRooted) (huri : ofPath? path = some uri)
    (hotherUri : ofPath? other = some otherUri) (h : uri.key = otherUri.key) : path = other := by
  have hwell := wellFormed_of_ofPath? huri
  have hself := denotes_of_key_eq hwell hpath huri rfl
  exact hself.eq (denotes_of_key_eq hwell hother hotherUri h)

end LuauWorkspace.Uri
