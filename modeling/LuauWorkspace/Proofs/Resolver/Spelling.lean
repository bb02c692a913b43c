import LuauWorkspace.Proofs.Resolver.Serving
import LuauWorkspace.Proofs.Uri.Spelling

/-! # Documents under other spellings

A document that is open under one uri of a file is found, changed and closed under exactly those
uris of the file that are spelled like it, and lies over the file only if the uri made from its path
is among them. -/

namespace LuauWorkspace

/-! ## One document and another uri -/

/-- In a table whose documents are filed under their own uris, a document is found under all uris
with the key of its own uri and under no other one. -/
theorem DocumentTable.IsFiled.get?_eq_some_iff {table : DocumentTable} (h : table.IsFiled)
    {u v : Uri} {document : Document} (hopen : table.get? u = some document) :
    table.get? v = some document ↔ u.key = v.key := by
  constructor
  · intro hfound
    exact (h _ _ hopen).symm.trans (h _ _ hfound)
  · intro hkey
    rw [get?, ← hkey]
    exact hopen

theorem DocumentTable.add_eq_alreadyOpen_iff {table : DocumentTable} {u : Uri}
    {held document : Document} (hopen : table.get? u = some held) :
    table.add document = (.error (.alreadyOpen u.key), table) ↔ u.key = document.uri.key := by
  rw [add]
  constructor
  · intro h
    split at h
    · exact (DocumentError.alreadyOpen.inj (Except.error.inj (Prod.mk.inj h).1)).symm
    · cases (Prod.mk.inj h).1
  · intro hkey
    rw [get?, hkey, ← get?] at hopen
    rw [hopen, Option.isSome_some, if_pos rfl, hkey]

theorem Document.update_append_ne (document : Document) :
    document.update (document.content ++ "x") none ≠ document := by
  intro h
  have hcontent : (document.content ++ "x").length = document.content.length :=
    congrArg (fun document => document.content.length) h
  rw [String.length_append] at hcontent
  simp at hcontent

namespace Resolver

variable {r : Resolver} {u v : Uri} {document : Document}

/-- What is done under the uri `v` is done to the document that is open under `u` exactly when
`alike` holds. -/
structure SharesWhen (r : Resolver) (u v : Uri) (document : Document) (alike : Prop) : Prop where
  found_iff : r.documents.get? v = some document ↔ alike
  changed_iff : (∀ content version, (r.didChange v content version).documents.get? u =
    some (document.update content version)) ↔ alike
  closed_iff : (r.didClose v).documents.get? u = none ↔ alike
  /-- Nothing else can be opened under `v`. -/
  refused_iff : ∀ other : Document, other.uri = v →
    (r.documents.add other = (.error (.alreadyOpen u.key), r.documents) ↔ alike)

/-- Whatever is done under a uri is done to the document under its key. -/
theorem sharesWhen_key_eq (hfiled : r.documents.IsFiled)
    (hopen : r.documents.get? u = some document) :
    r.SharesWhen u v document (u.key = v.key) := by
  have hfind : r.documents.find? u.key = some document := hopen
  refine ⟨hfiled.get?_eq_some_iff hopen, ?_, ?_, ?_⟩
  · constructor
    · intro hchanged
      by_contra hkey
      have hkept := hchanged (document.content ++ "x") none
      rw [DocumentTable.get?, find?_didChange, if_neg (Ne.symm hkey), hfind] at hkept
      exact document.update_append_ne (Option.some.inj hkept).symm
    · intro hkey content version
      rw [DocumentTable.get?, find?_didChange, if_pos hkey.symm, hfind]
      rfl
  · rw [DocumentTable.get?, find?_didClose]
    constructor
    · intro hclosed
      by_contra hkey
      rw [if_neg (Ne.symm hkey), hfind] at hclosed
      cases hclosed
    · intro hkey
      rw [if_pos hkey.symm]
  · rintro other rfl
    exact DocumentTable.add_eq_alreadyOpen_iff hopen

/-- The document lies over the file at `path` exactly when `alike` holds. -/
structure LiesOverWhen (r : Resolver) (disk : FileSystem) (path : Path) (document : Document)
    (alike : Prop) : Prop where
  document_iff : FileSystem.document? r.documents path = some document ↔ alike
  isFile : alike → (r.files disk).isFile path = true
  read : alike → (r.files disk).read path = .ok document.content

theorem liesOverWhen_key_eq {disk : FileSystem} {path : Path} {fileUri : Uri}
    (hfiled : r.documents.IsFiled) (huri : Uri.ofPath? path = some fileUri)
    (hopen : r.documents.get? u = some document) :
    r.LiesOverWhen disk path document (u.key = fileUri.key) := by
  have hfound := hfiled.get?_eq_some_iff hopen (v := fileUri)
  refine ⟨?_, ?_, ?_⟩
  · rw [document?_files huri]
    exact hfound
  · intro hkey
    have hfind : r.documents.find? fileUri.key = some document := hfound.mpr hkey
    rw [isFile_files disk huri, hfind]
    rfl
  · intro hkey
    have hfind : r.documents.find? fileUri.key = some document := hfound.mpr hkey
    rw [read_files disk huri, hfind]

/-! ## Spellings -/

/-- Uris of files have one key exactly when they are spelled alike. In every session, the document
that is open under one of them is found, changed and closed under the other one, and bars it from
being opened, exactly then; and it lies over the file that its uri denotes exactly when it is
spelled like the uri made from the path of the file. -/
theorem sharesWhen_spelledAlike {u v : Uri} (hu : u.IsValid) (hv : v.IsValid)
    (hfile : u.IsPlainFile) (hfile' : v.IsPlainFile) :
    (u.key = v.key ↔ u.SpelledAlike v) ∧
      ∀ {home : Option String} {root : Path} {defaults : AnalysisConfig} {settings : Settings}
        {disk : FileSystem} {s : Session},
        Session.Reached (Session.new home root defaults settings disk) s →
        ∀ {document : Document}, s.resolver.documents.get? u = some document →
          s.resolver.SharesWhen u v document (u.SpelledAlike v) ∧
            ∀ {path : Path}, u.Denotes path → ∃ fileUri, Uri.ofPath? path = some fileUri ∧
              s.resolver.LiesOverWhen s.disk path document (u.SpelledAlike fileUri) := by
  have hkey := Uri.key_eq_iff hu hv hfile hfile'
  refine ⟨hkey, ?_⟩
  intro home root defaults settings disk s h document hopen
  have hfiled := isFiled_of_reached h DocumentTable.isFiled_empty
  refine ⟨?_, ?_⟩
  · rw [← hkey]
    exact sharesWhen_key_eq hfiled hopen
  · intro path hpath
    obtain ⟨fileUri, huri⟩ := Uri.exists_ofPath?_eq (hu.absolute_of_denotes hpath)
    refine ⟨fileUri, huri, ?_⟩
    rw [← Uri.key_eq_iff hu (.ofPath huri) hfile (Uri.isPlainFile_of_ofPath? huri)]
    exact liesOverWhen_key_eq hfiled huri hopen

/-- A workspace with one file. -/
def packageStart : Session :=
  Session.new none (Path.ofString "/proj") {} {}
    (MemoryFiles.empty.insert (Path.ofNames ["proj", "@pkg", "a.luau"])
      (some "return 1")).fileSystem

/-- A document of the file, whose uri has the path spelled in a given way. -/
def packageDocument (spelling : String) : Document :=
  ⟨⟨"file", some "", spelling, none, none⟩, .luau, 1, "return 2"⟩

/-- The session in which this document has been opened. -/
def packageSession (spelling : String) : Session :=
  ⟨packageStart.resolver.didOpen (packageDocument spelling), packageStart.disk⟩

theorem reached_packageSession {spelling : String}
    (h : (packageDocument spelling).uri.IsValid) :
    Session.Reached packageStart (packageSession spelling) := by
  refine .step .start (.operation (.openDocument (packageDocument spelling)) ?_)
  rintro uri ⟨⟩
  exact h

/-- A document that is opened under a uri with a separator at the end is closed under the uri
without it, and is read for the file. -/
theorem sharesWhen_spelledAlike_separator :
    let u := (packageDocument "/proj/@pkg/a.luau/").uri
    let v := (packageDocument "/proj/@pkg/a.luau").uri
    let s := packageSession "/proj/@pkg/a.luau/"
    let path := Path.ofNames ["proj", "@pkg", "a.luau"]
    u.IsValid ∧ v.IsValid ∧ u.IsPlainFile ∧ v.IsPlainFile ∧ Session.Reached packageStart s ∧
      (s.resolver.documents.get? u).isSome = true ∧ u.Denotes path ∧ u.key = v.key ∧
      (s.resolver.didClose v).documents.get? u = none ∧
      (s.resolver.files s.disk).read path = .ok "return 2" := by
  intro u v s path
  have hu : u.IsValid := .read (by rfl : Uri.read "file:///proj/@pkg/a.luau/" = .ok _)
  have hv : v.IsValid := .read (by rfl : Uri.read "file:///proj/@pkg/a.luau" = .ok _)
  have hplain : ∀ spelling, (packageDocument spelling).uri.IsPlainFile :=
    fun _ => ⟨rfl, rfl, rfl, rfl⟩
  have hreached : Session.Reached packageStart s := reached_packageSession hu
  have hopen : s.resolver.documents.get? u = some (packageDocument "/proj/@pkg/a.luau/") := by
    decide +kernel
  have hpath : u.Denotes path := ⟨"/proj/@pkg/a.luau/", by decide +kernel, by decide⟩
  have halike : u.SpelledAlike v := Uri.spelledAlike_iff.mpr (by decide +kernel)
  obtain ⟨hkey, hsession⟩ := sharesWhen_spelledAlike hu hv (hplain _) (hplain _)
  obtain ⟨hshares, hlies⟩ := hsession hreached hopen
  obtain ⟨fileUri, huri, hlies⟩ := hlies hpath
  have hmade : Uri.ofPath? path = some v := by rfl
  obtain rfl := Option.some.inj (hmade.symm.trans huri)
  exact ⟨hu, hv, hplain _, hplain _, hreached, by rw [hopen]; rfl, hpath, hkey.mpr halike,
    hshares.closed_iff.mpr halike, hlies.read halike⟩

/-- A document that is opened under a uri with an escape is not found under the uri without it, does
not bar another one from being opened, and is not read for the file that both uris denote. -/
theorem escaped_document_lost :
    let escaped := packageDocument "/proj/%40pkg/a.luau"
    let plain := packageDocument "/proj/@pkg/a.luau"
    let s := packageSession "/proj/%40pkg/a.luau"
    let path := Path.ofNames ["proj", "@pkg", "a.luau"]
    Uri.read "file:///proj/%40pkg/a.luau" = .ok escaped.uri ∧
      Uri.read "file:///proj/@pkg/a.luau" = .ok plain.uri ∧
      escaped.uri.IsPlainFile ∧ plain.uri.IsPlainFile ∧
      escaped.uri.Denotes path ∧ plain.uri.Denotes path ∧ Session.Reached packageStart s ∧
      escaped.uri.key ≠ plain.uri.key ∧
      s.resolver.documents.get? escaped.uri = some escaped ∧
      s.resolver.documents.get? plain.uri = none ∧
      (s.resolver.didClose plain.uri).documents.get? escaped.uri = some escaped ∧
      (s.resolver.didOpen plain).documents.size = 2 ∧
      (s.resolver.files s.disk).read path = .ok "return 1" := by
  intro escaped plain s path
  have hread : Uri.read "file:///proj/%40pkg/a.luau" = .ok escaped.uri := by rfl
  refine ⟨hread, by rfl, ⟨rfl, rfl, rfl, rfl⟩, ⟨rfl, rfl, rfl, rfl⟩, ?_, ?_,
    reached_packageSession (.read hread), by decide +kernel, by decide +kernel, by decide +kernel,
    by decide +kernel, by decide +kernel, by decide +kernel⟩
  · exact ⟨"/proj/@pkg/a.luau", by decide +kernel, by decide⟩
  · exact ⟨"/proj/@pkg/a.luau", by decide +kernel, by decide⟩

end Resolver

end LuauWorkspace
