import LuauWorkspace.Document.Basic
import LuauWorkspace.Register

/-! # Open documents

The documents that a client has open, filed under the keys of their uris. A document cannot be
opened twice, and only an open document can be changed. -/

namespace LuauWorkspace

/-- The open documents, each under the key of the uri it was opened with. -/
structure DocumentTable where
  entries : Register String Document
deriving Inhabited

/-- Why documents cannot be opened or changed. -/
inductive DocumentError where
  | alreadyOpen (key : String)
  | notOpen (key : String)
deriving DecidableEq

/-- The wording of a cause. -/
def DocumentError.message : DocumentError → String
  | alreadyOpen key => s!"document is already open: {key}"
  | notOpen key => s!"document is not open: {key}"

namespace DocumentTable

/-- No open documents. -/
def empty : DocumentTable := ⟨[]⟩

/-- The number of open documents. -/
def size (table : DocumentTable) : Nat := table.entries.length

/-- The document under a key. -/
def find? (table : DocumentTable) (key : String) : Option Document :=
  table.entries.find? key

/-- The open document of a uri. -/
def get? (table : DocumentTable) (uri : Uri) : Option Document := table.find? uri.key

/-- Open a document. -/
def add (table : DocumentTable) (document : Document) :
    Except DocumentError Unit × DocumentTable :=
  if (table.get? document.uri).isSome then (.error (.alreadyOpen document.uri.key), table)
  else (.ok (), ⟨table.entries.put document.uri.key document⟩)

/-- Replace the text of an open document. -/
def change (table : DocumentTable) (uri : Uri) (content : String) (version : Option Int) :
    Except DocumentError Unit × DocumentTable :=
  if (table.get? uri).isSome then
    (.ok (), ⟨table.entries.update uri.key (·.update content version)⟩)
  else (.error (.notOpen uri.key), table)

/-- Close the document of a uri. -/
def close (table : DocumentTable) (uri : Uri) : Option Document × DocumentTable :=
  (table.get? uri, ⟨table.entries.erase uri.key⟩)

/-! ## Looking up after an event -/

theorem find?_add (table : DocumentTable) (document : Document) (key : String) :
    (table.add document).2.find? key =
      if key = document.uri.key then table.find? key <|> some document else table.find? key := by
  by_cases hopen : (table.get? document.uri).isSome = true
  · rw [add, if_pos hopen]
    split
    · next hkey =>
      obtain ⟨found, hfound⟩ := Option.isSome_iff_exists.mp hopen
      rw [hkey, ← get?, hfound]
      rfl
    · rfl
  · rw [add, if_neg hopen, find?, Register.find?_put]
    split
    · next hkey =>
      rw [hkey, ← get?, Option.not_isSome_iff_eq_none.mp hopen]
      rfl
    · rfl

theorem find?_change (table : DocumentTable) (uri : Uri) (content : String)
    (version : Option Int) (key : String) :
    (table.change uri content version).2.find? key =
      if key = uri.key then (table.find? key).map (·.update content version)
      else table.find? key := by
  by_cases hopen : (table.get? uri).isSome = true
  · rw [change, if_pos hopen, find?, Register.find?_update, ← find?]
  · rw [change, if_neg hopen]
    split
    · next hkey =>
      rw [hkey, ← get?, Option.not_isSome_iff_eq_none.mp hopen]
      rfl
    · rfl

theorem find?_close (table : DocumentTable) (uri : Uri) (key : String) :
    (table.close uri).2.find? key = if key = uri.key then none else table.find? key :=
  Register.find?_erase ..

/-! ## Events that fail -/

theorem add_of_error {table : DocumentTable} {document : Document} {cause : DocumentError}
    (h : (table.add document).1 = .error cause) : (table.add document).2 = table := by
  rw [add] at h ⊢
  split at h
  · next hopen => rw [if_pos hopen]
  · cases h

theorem change_of_error {table : DocumentTable} {uri : Uri} {content : String}
    {version : Option Int} {cause : DocumentError}
    (h : (table.change uri content version).1 = .error cause) :
    (table.change uri content version).2 = table := by
  rw [change] at h ⊢
  split at h
  · cases h
  · next hclosed => rw [if_neg hclosed]

theorem close_of_none {table : DocumentTable} {uri : Uri} (h : (table.close uri).1 = none) :
    (table.close uri).2 = table := by
  have hentries : table.entries.erase uri.key = table.entries := Register.erase_of_find?_eq_none h
  rw [close, hentries]

end DocumentTable

end LuauWorkspace
