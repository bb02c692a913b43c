import LuauWorkspace.Proofs.Uri.Read
import Mathlib.Data.List.DropRight

/-! # Spellings of one file

A path can be written in a uri in many ways, as every byte may be escaped. The key of a uri keeps
the way in which it is written: two uris of files have one key exactly when they are decoded to the
same bytes and have the same escapes, separators at the end aside. -/

namespace LuauWorkspace

/-! ## Escapes -/

namespace Percent

/-- For every character of a text, and for every byte that is written as an escape, the two digits
of the escape; none for what stands for itself. -/
def escapes : List Char → List (Option (List Char))
  | [] => []
  | c :: rest =>
    match _h : if c = '%' then decodeByte? rest else none with
    | some (_, after) => some (rest.take 2) :: escapes after
    | none => none :: escapes rest
termination_by text => text.length
decreasing_by
  · have := length_of_decodeByte? (Option.ite_none_right_eq_some.1 _h).2
    simp only [List.length_cons]
    omega
  · simp

theorem take_append_of_decodeByte? {rest after : List Char} {b : UInt8}
    (h : decodeByte? rest = some (b, after)) : rest = rest.take 2 ++ after := by
  match rest, h with
  | high :: low :: rest, h =>
    simp only [decodeByte?, Option.bind_eq_bind, Option.bind_eq_some_iff, Option.pure_def,
      Option.some.injEq, Prod.mk.injEq] at h
    obtain ⟨_, _, _, _, _, rfl⟩ := h
    rfl

/-- A text begins with an escape, or with a character that stands for itself. -/
theorem decode_cons_cases (c : Char) (rest : List Char) :
    (∃ b after, c = '%' ∧ rest = rest.take 2 ++ after ∧
      decode (c :: rest) = b :: decode after ∧
      escapes (c :: rest) = some (rest.take 2) :: escapes after) ∨
    (decode (c :: rest) = String.utf8EncodeChar c ++ decode rest ∧
      escapes (c :: rest) = none :: escapes rest) := by
  cases hbyte : if c = '%' then decodeByte? rest else none with
  | none =>
      refine .inr ⟨?_, ?_⟩
      · rw [decode]
        split
        · next heq => cases hbyte.symm.trans heq
        · rfl
      · rw [escapes]
        split
        · next heq => cases hbyte.symm.trans heq
        · rfl
  | some found =>
      obtain ⟨b, after⟩ := found
      obtain ⟨hc, hdigits⟩ := Option.ite_none_right_eq_some.mp hbyte
      refine .inl ⟨b, after, hc, take_append_of_decodeByte? hdigits, ?_, ?_⟩
      · rw [hc, decode_percent hdigits]
      · rw [escapes]
        split
        · next heq =>
            obtain ⟨-, rfl⟩ := Prod.mk.inj (Option.some.inj (hbyte.symm.trans heq))
            rfl
        · next heq => cases hbyte.symm.trans heq

theorem escapes_eq_nil {text : List Char} (h : escapes text = []) : text = [] := by
  cases text with
  | nil => rfl
  | cons c rest =>
      rcases decode_cons_cases c rest with ⟨_, _, -, -, -, hmarks⟩ | ⟨-, hmarks⟩
      · cases hmarks.symm.trans h
      · cases hmarks.symm.trans h

/-- No encoding of a character begins with that of another one. -/
theorem utf8EncodeChar_append_inj {c d : Char} {bytes bytes' : List UInt8}
    (h : String.utf8EncodeChar c ++ bytes = String.utf8EncodeChar d ++ bytes') :
    c = d ∧ bytes = bytes' := by
  have hc := ByteArray.utf8DecodeChar?_utf8EncodeChar_append (b := bytes.toByteArray) (c := c)
  rw [← List.toByteArray_append, h, List.toByteArray_append,
    ByteArray.utf8DecodeChar?_utf8EncodeChar_append] at hc
  obtain rfl := Option.some.inj hc
  exact ⟨rfl, List.append_cancel_left h⟩

/-- What a text is decoded to and its escapes make up the text. -/
theorem eq_of_decode_eq_of_escapes_eq {text other : List Char}
    (hdecode : decode text = decode other) (hescapes : escapes text = escapes other) :
    text = other := by
  induction hn : text.length using Nat.strongRecOn generalizing text other with
  | ind n ih =>
      cases text with
      | nil =>
          rw [escapes] at hescapes
          exact (escapes_eq_nil hescapes.symm).symm
      | cons c rest =>
          cases other with
          | nil => exact escapes_eq_nil (hescapes.trans (by rw [escapes]))
          | cons d others =>
              rw [List.length_cons] at hn
              rcases decode_cons_cases c rest with
                ⟨b, after, hc, hrest, hbytes, hmarks⟩ | ⟨hbytes, hmarks⟩
              · rcases decode_cons_cases d others with
                  ⟨b', after', hd, hothers, hbytes', hmarks'⟩ | ⟨-, hmarks'⟩
                · -- Both begin with an escape, which has the same digits.
                  rw [hmarks, hmarks'] at hescapes
                  rw [hbytes, hbytes'] at hdecode
                  obtain ⟨hdigits, hescapes⟩ := List.cons.inj hescapes
                  have hlength := congrArg List.length hrest
                  rw [List.length_append] at hlength
                  have hafter := ih after.length (by omega) (List.cons.inj hdecode).2 hescapes rfl
                  rw [hc, hd, hrest, hothers, Option.some.inj hdigits, hafter]
                · cases hmarks.symm.trans (hescapes.trans hmarks')
              · rcases decode_cons_cases d others with
                  ⟨b', after', hd, hothers, hbytes', hmarks'⟩ | ⟨hbytes', hmarks'⟩
                · cases hmarks.symm.trans (hescapes.trans hmarks')
                · -- Both begin with a character, whose bytes tell which one it is.
                  rw [hmarks, hmarks'] at hescapes
                  rw [hbytes, hbytes'] at hdecode
                  obtain ⟨hsame, hdecode⟩ := utf8EncodeChar_append_inj hdecode
                  have hrest := ih rest.length (by omega) hdecode (List.cons.inj hescapes).2 rfl
                  rw [hsame, hrest]

end Percent

namespace Uri

/-! ## Paths that have been read -/

theorem exists_parseSegments_file_eq (path : List Char) :
    ∃ rest, parseSegments "file" path = '/' :: rest := by
  rw [parseSegments, if_pos rfl]
  split
  · exact ⟨[], rfl⟩
  · next kept hkept =>
      cases hsegments : (segmentsOf "file" path).dropWhile List.isEmpty with
      | nil => exact absurd hsegments hkept
      | cons segment segments => exact ⟨_, rfl⟩

theorem exists_path_eq_of_parseFile {text host path : List Char}
    (h : parseFile text = .ok (host, path)) : ∃ rest, path = '/' :: rest := by
  have hpath : ∀ rest : List Char, ∃ rest', parsePath "file" rest = '/' :: rest' := by
    intro rest
    rw [parsePath, if_neg (by simp [isSpecial])]
    exact exists_parseSegments_file_eq _
  have hread : ∀ {host' path' : List Char}, (∃ rest, path' = '/' :: rest) →
      Except.ok (ε := UriError) (host', path') = .ok (host, path) → ∃ rest, path = '/' :: rest := by
    intro host' path' hrest heq
    obtain ⟨-, rfl⟩ := Prod.mk.inj (Except.ok.inj heq)
    exact hrest
  rw [parseFile.eq_def] at h
  split at h
  · split at h
    · simp only at h
      split at h
      · exact hread (exists_parseSegments_file_eq _) h
      · split at h
        · exact hread (hpath _) h
        · simp only [bind, Except.bind] at h
          split at h
          · cases h
          · exact hread (hpath _) h
    · exact hread (hpath _) h
  · exact hread (hpath _) h

theorem exists_path_eq_of_read {text : String} {uri : Uri} (h : read text = .ok uri)
    (hfile : uri.scheme = "file") : ∃ rest, uri.path.toList = '/' :: rest := by
  simp only [read, bind, Except.bind] at h
  split at h
  · split at h
    · cases h
    · next parts hparts =>
        have huri := Except.ok.inj h
        rw [← huri] at hfile ⊢
        simp only at hfile
        subst hfile
        simp only [parseAfterScheme, if_pos, bind, Except.bind] at hparts
        split at hparts
        · cases hparts
        · next found hfound =>
            obtain rfl := Except.ok.inj hparts
            rw [String.toList_ofList]
            exact exists_path_eq_of_parseFile hfound
  · cases h

/-- The path of the uri of a file begins with a separator. -/
theorem IsValid.exists_path_eq {uri : Uri} (h : uri.IsValid) (hfile : uri.scheme = "file") :
    ∃ rest, uri.path.toList = '/' :: rest := by
  cases h with
  | read h => exact exists_path_eq_of_read h hfile
  | @ofPath path _ h =>
      by_cases hsegments : path.segments = []
      · rw [ofPath?, Option.ite_none_right_eq_some] at h
        rw [← Option.some.inj h.2]
        exact ⟨[], by simp [hsegments]⟩
      · rw [ofPath?_eq_some h hsegments, String.toList_ofList]
        cases hlist : path.segments with
        | nil => exact absurd hlist hsegments
        | cons segment segments => exact ⟨_, rfl⟩

/-- A uri denotes an absolute path. -/
theorem IsValid.absolute_of_denotes {uri : Uri} (h : uri.IsValid) {path : Path}
    (hpath : uri.Denotes path) : path.absolute = true := by
  obtain ⟨text, htext, rfl⟩ := hpath
  rw [filePath?, Option.ite_none_right_eq_some] at htext
  obtain ⟨rest, hrest⟩ := h.exists_path_eq htext.1
  have hbytes := Percent.decode_of_decodeText? htext.2
  rw [hrest, Percent.decode_cons_of_ne (by decide)] at hbytes
  rw [Path.absolute_ofString]
  cases hlist : text.toList with
  | nil =>
      rw [hlist] at hbytes
      cases hbytes
  | cons c chars =>
      rw [hlist, List.flatMap_cons] at hbytes
      rw [← (Percent.utf8EncodeChar_append_inj hbytes).1]
      rfl

/-! ## Keys of files -/

/-- A uri of a file on this machine, without a query and without a fragment. -/
structure IsPlainFile (uri : Uri) : Prop where
  scheme : uri.scheme = "file"
  authority : uri.authority = some ""
  query : uri.query = none
  fragment : uri.fragment = none

/-- The uri made from a path is that of a file, without a query and without a fragment. -/
theorem isPlainFile_of_ofPath? {path : Path} {uri : Uri} (h : ofPath? path = some uri) :
    uri.IsPlainFile := by
  rw [ofPath?, Option.ite_none_right_eq_some] at h
  rw [← Option.some.inj h.2]
  exact ⟨rfl, rfl, rfl, rfl⟩

/-- The path of a uri without separators at its end. -/
def bare (uri : Uri) : List Char := uri.path.toList.rdropWhile (· == '/')

/-- The uris are decoded to the same path and have the same bytes escaped, with the same digits;
separators at the end do not count. -/
structure SpelledAlike (u v : Uri) : Prop where
  decode_eq : Percent.decode u.bare = Percent.decode v.bare
  escapes_eq : Percent.escapes u.bare = Percent.escapes v.bare

theorem spelledAlike_iff {u v : Uri} : u.SpelledAlike v ↔ u.bare = v.bare := by
  constructor
  · intro h
    exact Percent.eq_of_decode_eq_of_escapes_eq h.decode_eq h.escapes_eq
  · intro h
    exact ⟨by rw [h], by rw [h]⟩

/-- Of a text made of separators only, one is kept. -/
theorem trimSlashes_append {path base : List Char} (hpath : path ≠ []) :
    trimSlashes (base.length + 1) (path ++ base) =
      (if path.dropWhile (· == '/') = [] then ['/'] else path.dropWhile (· == '/')) ++ base := by
  induction path with
  | nil => exact absurd rfl hpath
  | cons c path ih =>
      by_cases hc : c = '/'
      · subst hc
        rw [List.dropWhile_cons_of_pos (by rfl)]
        cases path with
        | nil =>
            rw [List.singleton_append, trimSlashes, if_neg (by omega)]
            rfl
        | cons d path =>
            rw [List.cons_append, trimSlashes, if_pos (by simp), ih (List.cons_ne_nil _ _)]
      · rw [List.dropWhile_cons_of_neg (by simpa using hc), if_neg (List.cons_ne_nil _ _),
          List.cons_append, trimSlashes.eq_def]
        split
        · next heq => exact absurd (List.cons.inj heq).1 hc
        · rfl

/-- The key of the uri of a file is its path without separators at its end; of the root, one is
kept. -/
theorem toList_key {uri : Uri} (hfile : uri.IsPlainFile) (huri : uri.IsValid) :
    uri.key.toList = "file://".toList ++ if uri.bare = [] then ['/'] else uri.bare := by
  have htext : uri.toString.toList = "file://".toList ++ uri.path.toList := by
    simp [toString, beforePath, afterPath, hfile.scheme, hfile.authority, hfile.query,
      hfile.fragment]
  have hleast : uri.toString.toList.length - uri.path.length + 1 =
      "file://".toList.reverse.length + 1 := by
    rw [htext, List.length_append, List.length_reverse, String.length_toList, String.length_toList]
    omega
  obtain ⟨rest, hrest⟩ := huri.exists_path_eq hfile.scheme
  have hreverse : uri.path.toList.reverse ≠ [] := by simp [hrest]
  have hbare : uri.path.toList.reverse.dropWhile (· == '/') = uri.bare.reverse := by
    rw [bare, List.rdropWhile, List.reverse_reverse]
  rw [key, hleast, String.toList_ofList, htext, List.reverse_append, trimSlashes_append hreverse,
    hbare, List.reverse_append, List.reverse_reverse]
  by_cases hnil : uri.bare = []
  · simp [hnil]
  · simp [hnil]

theorem bare_ne_slash (uri : Uri) : uri.bare ≠ ['/'] := by
  intro h
  have hne : List.rdropWhile (· == '/') uri.path.toList ≠ [] := by
    rw [bare] at h
    rw [h]
    exact List.cons_ne_nil _ _
  have hlast := List.rdropWhile_last_not (· == '/') uri.path.toList hne
  simp only [bare] at h
  simp [h] at hlast

/-- Uris of files have one key exactly when they are spelled alike. -/
theorem key_eq_iff {u v : Uri} (hu : u.IsValid) (hv : v.IsValid) (hfile : u.IsPlainFile)
    (hfile' : v.IsPlainFile) : u.key = v.key ↔ u.SpelledAlike v := by
  rw [spelledAlike_iff, ← String.toList_inj, toList_key hfile hu, toList_key hfile' hv,
    List.append_cancel_left_eq]
  constructor
  · intro h
    split at h
    · next hnil =>
        split at h
        · next hnil' => rw [hnil, hnil']
        · exact absurd h.symm v.bare_ne_slash
    · split at h
      · exact absurd h u.bare_ne_slash
      · exact h
  · intro h
    rw [h]

end Uri

end LuauWorkspace
