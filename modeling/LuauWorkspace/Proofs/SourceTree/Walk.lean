import LuauWorkspace.Proofs.SourceTree.Entry
import LuauWorkspace.Resolver.Resolution

/-! # Walks in the index

A relative require that is followed through the index goes the same way as its path: the names by
which the instance is reached are those that the path folds to. -/

namespace LuauWorkspace

namespace Location

/-- Whether relative requires in the instance start at the instance itself: it has no script, or its
script is an `init` file. -/
def directoryLike (location : Location) : Bool :=
  location.node.scriptFile?.all fun file => (Path.ofString file).isInit

/-- The location at which relative requires in the instance start. -/
def start? (location : Location) : Option Location :=
  if location.directoryLike then some location else location.parent?

/-- Where one segment of a path leads. -/
def take? (location : Location) : Segment → Option Location
  | .current => some location
  | .up => location.parent?
  | .name text => location.child? text

theorem names_of_child? {location below : Location} {name : String}
    (h : location.child? name = some below) : below.names = location.names ++ [name] := by
  obtain ⟨child, hfound, rfl⟩ := Option.map_eq_some_iff.mp h
  have hname := List.find?_some hfound
  rw [names_enter, beq_iff_eq.mp hname]

theorem names_of_parent? {location up : Location} (h : location.parent? = some up) :
    location.names = up.names ++ [location.node.name] := by
  obtain ⟨node, above⟩ := location
  cases above with
  | nil => cases h
  | cons next above =>
      obtain rfl := Option.some.inj h
      rfl

/-- A segment leads to the names that it folds to. -/
theorem names_of_take? {location next : Location} {segment : Segment}
    (h : location.take? segment = some next) (top : List String) :
    Path.fold true ((top ++ location.names).map Segment.name).reverse segment =
      ((top ++ next.names).map Segment.name).reverse := by
  cases segment with
  | current =>
      obtain rfl := Option.some.inj h
      rfl
  | up =>
      rw [names_of_parent? h]
      simp [Path.fold]
  | name text =>
      rw [names_of_child? h]
      simp [Path.fold]

/-- A walk along segments leads to the names that they fold to. -/
theorem names_of_foldlM_take? {location last : Location} {segments : List Segment}
    (h : segments.foldlM take? location = some last) (top : List String) :
    segments.foldl (Path.fold true) ((top ++ location.names).map Segment.name).reverse =
      ((top ++ last.names).map Segment.name).reverse := by
  induction segments generalizing location with
  | nil =>
      obtain rfl := Option.some.inj h
      rfl
  | cons segment segments ih =>
      obtain ⟨next, hnext, hlast⟩ := Option.bind_eq_some_iff.mp h
      rw [List.foldl_cons, names_of_take? hnext, ih hlast]

end Location

namespace TreeIndex

open SourceTree

variable {directory : String} {tree : SourceTree} {location : Location} {entry : TreeEntry}

/-! ## Pieces of a require -/

/-- A piece that is neither empty nor made of dots stands for a name. -/
theorem ofPiece?_of_ne {piece : List Char} (hempty : piece ≠ []) (hdot : piece ≠ ['.'])
    (hdots : piece ≠ ['.', '.']) :
    Segment.ofPiece? piece = some (.name (String.ofList piece)) := by
  rw [Segment.ofPiece?.eq_def]
  split
  · exact absurd rfl hempty
  · exact absurd rfl hdot
  · exact absurd rfl hdots
  · rfl

/-- A piece leads where the segment leads that it stands for, if any. -/
theorem rel_follow? (h : Represents directory tree location entry) (piece : List Char) :
    Option.Rel (Represents directory tree)
      ((Segment.ofPiece? piece).elim (some location) location.take?)
      ((ofTree directory tree).follow? entry piece) := by
  rw [follow?.eq_def]
  split
  · exact .some h
  · exact .some h
  · exact rel_parent? h
  · next hempty hdot hdots =>
      rw [ofPiece?_of_ne hempty hdot hdots]
      exact rel_child? h _

theorem rel_foldlM_follow? (h : Represents directory tree location entry)
    (pieces : List (List Char)) :
    Option.Rel (Represents directory tree)
      ((pieces.filterMap Segment.ofPiece?).foldlM Location.take? location)
      (pieces.foldlM (ofTree directory tree).follow? entry) := by
  induction pieces generalizing location entry with
  | nil => exact .some h
  | cons piece pieces ih =>
      have hstep := rel_bind (rel_follow? h piece) fun next below hnext => ih hnext
      cases hsegment : Segment.ofPiece? piece with
      | none =>
          rw [hsegment] at hstep
          rw [List.filterMap_cons_none hsegment]
          exact hstep
      | some segment =>
          rw [hsegment] at hstep
          rw [List.filterMap_cons_some hsegment]
          exact hstep

/-! ## Where requires start -/

theorem Represents.directoryLike_eq (h : Represents directory tree location entry) :
    entry.directoryLike = location.directoryLike := by
  obtain ⟨id, parent, -, rfl⟩ := h
  rfl

theorem rel_start? (h : Represents directory tree location entry) :
    Option.Rel (Represents directory tree) location.start?
      ((ofTree directory tree).start? entry) := by
  rw [Location.start?, start?, h.directoryLike_eq]
  split
  · exact .some h
  · exact rel_parent? h

/-! ## Extensions -/

/-- A require loses the extension of a script at its end, and nothing else. -/
theorem dropExtension_cases (require : List Char) :
    dropExtension require = require ∨ ∃ extension ∈ Path.luauExtensions,
      require = dropExtension require ++ '.' :: extension.toList := by
  rw [dropExtension]
  cases hfound : Path.luauExtensions.findSome? fun extension =>
      Text.dropEnd? ('.' :: extension.toList) require with
  | none => exact .inl rfl
  | some front =>
      obtain ⟨extension, hextension, hfront⟩ := List.exists_of_findSome?_eq_some hfound
      exact .inr ⟨extension, hextension, Text.dropEnd?_eq_some_iff.mp hfront⟩

theorem isSeparator_of_mem_extension {extension : String} (h : extension ∈ Path.luauExtensions) :
    ∀ c ∈ '.' :: extension.toList, isSeparator c = false := by
  rcases List.mem_cons.mp h with rfl | h
  · simp [isSeparator]
  · obtain rfl := List.mem_singleton.mp h
    simp [isSeparator]

theorem dropExtension_append {extension : String} (h : extension ∈ Path.luauExtensions)
    (require : List Char) : dropExtension (require ++ '.' :: extension.toList) = require := by
  rw [dropExtension, Path.luauExtensions, List.findSome?_cons]
  rcases List.mem_cons.mp h with rfl | h
  · rw [Text.dropEnd?_eq_some_iff.mpr rfl]
    rfl
  · obtain rfl := List.mem_singleton.mp h
    -- The two extensions end in different letters.
    have hother : Text.dropEnd? ('.' :: "luau".toList) (require ++ '.' :: "lua".toList) = none := by
      rw [Option.eq_none_iff_forall_ne_some]
      intro front hfront
      have hlast := congrArg List.getLast? (Text.dropEnd?_eq_some_iff.mp hfront)
      simp at hlast
    rw [hother, List.findSome?_cons, Text.dropEnd?_eq_some_iff.mpr rfl]
    rfl

/-- A require whose last piece has no extension of a script is left as it is. -/
theorem dropExtension_of_last {require last : List Char} {pieces : List (List Char)}
    (hpieces : Text.splitOn isSeparator require = pieces ++ [last])
    (hlast : ∀ extension ∈ Path.luauExtensions, ¬('.' :: extension.toList) <:+ last) :
    dropExtension require = require := by
  rcases dropExtension_cases require with hsame | ⟨extension, hextension, hrequire⟩
  · exact hsame
  · obtain ⟨front, piece, -, hfront⟩ := Text.exists_splitOn_append
      (isSeparator_of_mem_extension hextension) (dropExtension require)
    rw [← hrequire, hpieces] at hfront
    obtain ⟨-, heq⟩ := List.append_inj' hfront rfl
    exact absurd ⟨piece, (List.singleton_inj.mp heq).symm⟩ (hlast extension hextension)

end TreeIndex

end LuauWorkspace
