import LuauWorkspace.Proofs.Resolver.Identity
import LuauWorkspace.Proofs.SourceTree.Mirror
import LuauWorkspace.Proofs.SourceTree.Walk

/-! # Requires in mirrored trees

Where the source tree mirrors a directory, a require means the same from a script and from the
instance that claims the script. -/

namespace LuauWorkspace

open VirtualName SourceTree TreeIndex

theorem FileSystem.withDocuments_empty (disk : FileSystem) : disk.withDocuments .empty = disk := by
  have hnone : ∀ path, FileSystem.document? .empty path = none := by
    intro path
    rw [FileSystem.document?]
    cases Uri.ofPath? path with
    | none => rfl
    | some uri => rfl
  simp only [withDocuments, hnone, Option.isSome_none, Bool.false_or]

namespace Resolver

variable {r : Resolver} {disk : FileSystem} {tree : SourceTree} {top : List String}

/-! ## Strings by their contexts -/

/-- Two contexts with the same aliases differ at most where no alias counts. -/
theorem resolveString_of_aliases {context other : Option String} {require : String}
    {found : ResolvedModule} (haliases : r.aliases disk context = r.aliases disk other)
    (hplain : r.moduleOf? disk (r.plainTarget disk context require) = some found →
      r.moduleOf? disk (r.plainTarget disk other require) = some found)
    (h : (r.resolveString disk context require).1 = some found) :
    (r.resolveString disk other require).1 = some found := by
  rw [resolveString_fst, target_fst, haliases] at h
  rw [resolveString_fst, target_fst]
  split
  · next heq => simpa only [heq] using h
  · next heq =>
      simp only [heq] at h
      split
      · next hpath => simpa only [hpath] using h
      · next hpath =>
          simp only [hpath] at h
          exact hplain h

theorem aliases_eq_of_contextPath? {name other : String}
    (h : r.contextPath? name = r.contextPath? other) :
    r.aliases disk (some name) = r.aliases disk (some other) := by
  have hdirectory : r.directoryOf? disk name = r.directoryOf? disk other := by
    rw [directoryOf?, directoryOf?, h]
  have hconfig : r.config disk name = r.config disk other := by
    rw [config, config, hdirectory]
  rw [aliases, aliases, hconfig]

theorem startDirectory_eq_of_contextPath? {name other : String}
    (h : r.contextPath? name = r.contextPath? other) :
    r.startDirectory disk (some name) = r.startDirectory disk (some other) := by
  simp only [startDirectory, Option.bind_some, h]

theorem plainTarget_of_file {name require : String} (hvirtual : isVirtual require = false)
    (hname : isVirtual name = false) :
    r.plainTarget disk (some name) require =
      .path (Path.absoluteIn (r.startDirectory disk (some name)) (Path.ofString require)) := by
  simp only [plainTarget, hvirtual, Option.filter_some, hname]
  rfl

theorem plainTarget_of_place {name require : String} (hvirtual : isVirtual require = false)
    (hname : isVirtual name = true) :
    r.plainTarget disk (some name) require =
      match r.index.relative? name require with
      | some node => .node node.place
      | none =>
        if (r.fileOf? name).isSome then
          .path (Path.absoluteIn (r.startDirectory disk (some name)) (Path.ofString require))
        else .nowhere := by
  simp only [plainTarget, hvirtual, Option.filter_some, hname]
  rfl

/-! ## The files of instances -/

theorem file_eq_backing? (hroot : r.root.IsCanonical) {location : Location} {entry : TreeEntry}
    (h : Represents r.root.toString tree location entry) :
    entry.file = location.node.backing? r.root := by
  rw [h.file_eq, hroot.ofString_toString]
  rfl

/-- In a mirrored tree, the name of a file that an instance claims is the place of the instance. -/
theorem nameOfPath_of_mirrors (h : r.WellFormed)
    (hindex : r.index = ofTree r.root.toString tree)
    (hmirror : Mirrors (r.files disk) r.root top tree) {location : Location}
    (hlocation : location ∈ tree.locations) {file : Path}
    (hfile : location.node.backing? r.root = some file) :
    r.nameOfPath file = location.place := by
  obtain ⟨entry, hentry⟩ := exists_represents r.root.toString hlocation
  have hclaim := (file_eq_backing? h.root hentry).trans hfile
  have hmem : entry ∈ r.index.nodes.toList := hindex ▸ hentry.mem_nodes
  have hcanonical : file.IsCanonical := h.index.isCanonical_file entry hmem file hclaim
  have hsame : r.absolute file = file := hcanonical.absoluteIn_eq r.root
  simp only [nameOfPath, hsame]
  cases hfound : r.index.ofFile? file with
  | none =>
      have hunclaimed := h.index.ofFile?_eq_none_iff.mp hfound entry hmem
      rw [hcanonical.normalize_eq] at hunclaimed
      exact absurd hclaim hunclaimed
  | some found =>
      obtain ⟨hfoundMem, hfoundFile⟩ := h.index.mem_of_ofFile? hfound
      rw [hcanonical.normalize_eq] at hfoundFile
      obtain ⟨other, hother⟩ := exists_represents_of_mem (hindex ▸ hfoundMem)
      -- Both instances claim the file, so the same names lead to them.
      obtain ⟨claimed, hclaimed, hclaims⟩ :=
        hmirror.claims_of_hasNode (hasNode_of_mem location hlocation)
      obtain ⟨claimed', hclaimed', hclaims'⟩ :=
        hmirror.claims_of_hasNode (hasNode_of_mem other hother.mem_locations)
      rw [← file_eq_backing? h.root hother, hfoundFile] at hclaimed'
      rw [hfile] at hclaimed
      have hpath := Path.ofNames_injective
        (Option.some.inj (hclaimed.symm.trans hclaimed'))
      obtain rfl := List.append_cancel_left hpath
      have hnames : location.names = other.names := hclaims.unique hclaims'
      exact hother.place_eq.trans (by
        rw [place_eq other hother.mem_locations, place_eq location hlocation, hnames])

/-! ## Where a walk leads -/

theorem splitOn_isSeparator {text : List Char} (h : '\\' ∉ text) :
    Text.splitOn isSeparator text = Text.splitOn (· == '/') text := by
  apply Text.splitOn_congr
  intro c hc
  have hne : c ≠ '\\' := ne_of_mem_of_not_mem hc h
  simp [isSeparator, hne]

theorem eq_of_reverse_names {names names' : List String}
    (h : (names.map Segment.name).reverse = (names'.map Segment.name).reverse) : names = names' :=
  List.map_injective_iff.mpr (fun _ _ => Segment.name.inj) (List.reverse_injective h)

/-- The pieces of a require with an extension are those of the require without it, but for the last,
which is a name. -/
theorem exists_pieces_of_extension {extension : String} (h : extension ∈ Path.luauExtensions)
    (front : List Char) :
    ∃ (pieces : List (List Char)) (last : String), '/' ∉ last.toList ∧
      Text.splitOn (· == '/') front = pieces ++ [last.toList] ∧
      Path.segmentsOfText (front ++ '.' :: extension.toList) =
        pieces.filterMap Segment.ofPiece? ++ [.name (last ++ ("." ++ extension))] := by
  have hsuffix : ∀ c ∈ '.' :: extension.toList, (c == '/') = false := by
    intro c hc
    have hslash := (FileSystem.isEntryName_extended (by decide : '/' ∉ "".toList) h).2.2.2
    rw [Path.toList_extended] at hslash
    simpa using ne_of_mem_of_not_mem hc hslash
  obtain ⟨pieces, piece, hpieces, hall⟩ := Text.exists_splitOn_append hsuffix front
  have hlist : (String.ofList piece).toList = piece := String.toList_ofList
  have hslash : '/' ∉ (String.ofList piece).toList := by
    rw [hlist]
    intro hmem
    have hin : piece ∈ Text.splitOn (· == '/') front := by rw [hpieces]; simp
    exact absurd (Text.not_isCut_of_mem_splitOn hin hmem) (by decide)
  refine ⟨pieces, String.ofList piece, hslash, by rw [hlist]; exact hpieces, ?_⟩
  have hname : Segment.ofPiece? (piece ++ '.' :: extension.toList) =
      some (.name (String.ofList piece ++ ("." ++ extension))) := by
    rw [← ofPiece?_of_isEntryName (FileSystem.isEntryName_extended hslash h),
      Path.toList_extended, hlist]
  rw [Path.segmentsOfText, hall, List.filterMap_append, List.filterMap_cons_some hname]
  rfl

theorem exists_child?_of_follow? {directory name : String} {location : Location}
    {entry below : TreeEntry} (h : Represents directory tree location entry)
    (hname : IsEntryName name)
    (hbelow : (ofTree directory tree).follow? entry name.toList = some below) :
    ∃ child, location.child? name = some child ∧ Represents directory tree child below := by
  have hrel := rel_follow? h name.toList
  rw [ofPiece?_of_isEntryName hname, hbelow] at hrel
  exact exists_left_of_rel hrel

/-- A walk whose last piece has lost an extension ends at the child that claims the file. -/
theorem place_of_follow? (h : r.WellFormed) (hindex : r.index = ofTree r.root.toString tree)
    (hmirror : Mirrors (r.files disk) r.root top tree) {location : Location}
    {entry last : TreeEntry} (hentry : Represents r.root.toString tree location entry)
    {name extension : String} (hname : '/' ∉ name.toList)
    (hextension : extension ∈ Path.luauExtensions)
    (hlast : (ofTree r.root.toString tree).follow? entry name.toList = some last) {file : Path}
    (hfile : (r.files disk).moduleFile?
      (Path.ofNames (top ++ (location.names ++ [name ++ ("." ++ extension)]))) = some file) :
    r.nameOfPath file = last.place := by
  have hnode := hasNode_of_mem location hentry.mem_locations
  rcases hmirror.child_of_moduleFile? hnode hname hextension hfile with
    rfl | ⟨child, hchild, rfl, hbacking⟩
  · obtain ⟨below, hbelow, hlastEntry⟩ := exists_child?_of_follow? hentry (by decide) hlast
    have hinit := hmirror.isModuleName_of_mem (hasNode_of_mem below hlastEntry.mem_locations)
      "init" (by simp [Location.names_of_child? hbelow])
    exact absurd rfl hinit.ne_init
  · have hvalid := hmirror.isModuleName hnode child hchild
    obtain ⟨below, hbelow, hlastEntry⟩ :=
      exists_child?_of_follow? hentry hvalid.isEntryName hlast
    have hplace := (child?_eq_some hentry.mem_locations hbelow).2
    have henter := enter_mem hentry.mem_locations hchild
    rw [nameOfPath_of_mirrors h hindex hmirror henter hbacking, hlastEntry.place_eq, hplace]
    rfl

/-- Where a walk ends, the file that is loaded for the path of the require is the one that the
instance at the end claims. -/
theorem place_of_walk (h : r.WellFormed) (hindex : r.index = ofTree r.root.toString tree)
    (hmirror : Mirrors (r.files disk) r.root top tree) {location : Location}
    {start last : TreeEntry} (hstart : Represents r.root.toString tree location start)
    {require : String} (hrelative : (Path.ofString require).absolute = false)
    (hback : '\\' ∉ require.toList)
    (hwalk : (Text.splitOn isSeparator (dropExtension require.toList)).foldlM
      (ofTree r.root.toString tree).follow? start = some last) {file : Path}
    (hfile : (r.files disk).moduleFile?
      (Path.absoluteIn (Path.ofNames (top ++ location.names)) (Path.ofString require)) =
        some file) :
    r.nameOfPath file = last.place := by
  obtain ⟨folded, hpath, hfold⟩ := Path.absoluteIn_ofNames hrelative (top ++ location.names)
  rw [Path.foldl_fold_ofString] at hfold
  rw [hpath] at hfile
  rcases dropExtension_cases require.toList with hsame | ⟨extension, hextension, hrequire⟩
  · -- Without an extension, the walk and the path have the same pieces.
    rw [hsame, splitOn_isSeparator hback] at hwalk
    have hrel := rel_foldlM_follow? hstart (Text.splitOn (· == '/') require.toList)
    rw [hwalk] at hrel
    obtain ⟨target, htarget, hlast⟩ := exists_left_of_rel hrel
    have hnames := Location.names_of_foldlM_take? htarget top
    obtain rfl := eq_of_reverse_names (hfold.symm.trans hnames)
    have hbacking :=
      hmirror.backing?_of_moduleFile? (hasNode_of_mem target hlast.mem_locations) hfile
    rw [nameOfPath_of_mirrors h hindex hmirror hlast.mem_locations hbacking, hlast.place_eq]
  · -- Otherwise they have the same pieces but for the last.
    generalize dropExtension require.toList = front at hwalk hrequire
    obtain ⟨pieces, piece, hslash, hpieces, hsegments⟩ :=
      exists_pieces_of_extension hextension front
    rw [hrequire] at hback hfold
    rw [splitOn_isSeparator (fun hmem => hback (List.mem_append_left _ hmem)), hpieces,
      List.foldlM_append] at hwalk
    obtain ⟨entry, hentry, hlast⟩ := Option.bind_eq_some_iff.mp hwalk
    obtain ⟨next, hnext, hlast⟩ := Option.bind_eq_some_iff.mp hlast
    obtain rfl := Option.some.inj hlast
    have hrel := rel_foldlM_follow? hstart pieces
    rw [hentry] at hrel
    obtain ⟨target, htarget, hreached⟩ := exists_left_of_rel hrel
    have hfolded : folded = top ++ (target.names ++ [piece ++ ("." ++ extension)]) := by
      apply eq_of_reverse_names
      rw [← hfold, hsegments, List.foldl_append, Location.names_of_foldlM_take? htarget top]
      simp [Path.fold]
    rw [hfolded] at hfile
    exact place_of_follow? h hindex hmirror hreached hslash hextension hnext hfile

/-! ## Scripts as contexts -/

/-- The file of a script in a mirrored tree is named by an instance, which is found at its place,
claims the file and starts its requires at the instance of the directory. -/
theorem exists_context (h : r.WellFormed) (hindex : r.index = ofTree r.root.toString tree)
    (hmirror : Mirrors (r.files disk) r.root top tree)
    (hlists : ListsScripts (r.files disk) r.root top tree) {names : List String} {fileName : String}
    (hisFile : (r.files disk).isFile (Path.ofNames (top ++ (names ++ [fileName]))) = true) :
    ∃ entry, r.nameOfPath (Path.ofNames (top ++ (names ++ [fileName]))) = entry.place ∧
      r.index.ofPlace? entry.place = some entry ∧
      entry.file = some (Path.ofNames (top ++ (names ++ [fileName]))) ∧
      ∀ start, r.index.start? entry = some start →
        ∃ around, around.names = names ∧ Represents r.root.toString tree around start := by
  obtain ⟨_, _, hnode, hbacking, hstarts⟩ := hmirror.start_of_isFile hlists hisFile
  obtain ⟨location, hlocation, rfl, rfl⟩ := hnode.exists_location
  obtain ⟨entry, hfound, hentry⟩ :=
    exists_ofPlace?_place r.root.toString hmirror.hasPlainPlaces hlocation
  rw [← hindex, ← hentry.place_eq] at hfound
  refine ⟨entry, ?_, hfound, (file_eq_backing? h.root hentry).trans hbacking, ?_⟩
  · rw [hentry.place_eq]
    exact nameOfPath_of_mirrors h hindex hmirror hlocation hbacking
  · intro start hstart
    have hrel := rel_start? hentry
    rw [← hindex, hstart] at hrel
    obtain ⟨around, haround, hrepresents⟩ := exists_left_of_rel hrel
    refine ⟨around, ?_, hrepresents⟩
    rw [Location.start?, Location.directoryLike] at haround
    rcases hstarts with ⟨hnames, hinit⟩ | ⟨name, hnames, hinit⟩
    · rw [if_pos hinit] at haround
      exact Option.some.inj haround ▸ hnames
    · rw [if_neg (by rw [hinit]; decide)] at haround
      rw [Location.names_of_parent? haround] at hnames
      exact (List.append_inj' hnames rfl).1

/-- Relative requires in a script of a mirrored tree start at the directory of the script. -/
theorem startDirectory_of_mirrors (hmirror : Mirrors (r.files disk) r.root top tree)
    (horigin : r.settings.require.origin = .requiringFile) {names : List String}
    {fileName name : String}
    (hisFile : (r.files disk).isFile (Path.ofNames (top ++ (names ++ [fileName]))) = true)
    (hcontext : r.contextPath? name = some (Path.ofNames (top ++ (names ++ [fileName])))) :
    r.startDirectory disk (some name) = Path.ofNames (top ++ names) := by
  have hdirectory : (r.files disk).isDirectory (Path.ofNames (top ++ (names ++ [fileName]))) ≠
      true := by
    intro hisDirectory
    obtain ⟨node, hnode, -⟩ := hmirror.directory hisDirectory
    have hname := hmirror.isModuleName_of_mem hnode fileName (by simp)
    exact hmirror.not_isFile_of_isModuleName hname hisFile
  rw [startDirectory, if_neg (by rw [horigin]; decide), Option.bind_some, hcontext]
  simp only
  rw [if_neg hdirectory, ← List.append_assoc, Path.parent?_ofNames_concat]
  rfl

/-- What the path of a require leads to from the directory of a script is what the require leads to
from the place of the instance that claims the script. -/
theorem moduleOf?_plainTarget_of_place (h : r.WellFormed)
    (hindex : r.index = ofTree r.root.toString tree)
    (hmirror : Mirrors (r.files disk) r.root top tree) {names : List String} {entry : TreeEntry}
    (hplace : r.index.ofPlace? entry.place = some entry) {script : Path}
    (hfile : entry.file = some script)
    (hstart : r.startDirectory disk (some entry.place) = Path.ofNames (top ++ names))
    (hstarts : ∀ start, r.index.start? entry = some start →
      ∃ around, around.names = names ∧ Represents r.root.toString tree around start)
    {require : String} (hrelative : (Path.ofString require).absolute = false)
    (hback : '\\' ∉ require.toList) (hvirtual : isVirtual require = false)
    {found : ResolvedModule}
    (hfound : r.moduleOf? disk
      (.path (Path.absoluteIn (Path.ofNames (top ++ names)) (Path.ofString require))) =
        some found) :
    r.moduleOf? disk (r.plainTarget disk (some entry.place) require) = some found := by
  have hplaceVirtual : isVirtual entry.place = true :=
    h.index.isVirtual_place entry (h.index.mem_of_ofPlace? hplace).1
  rw [plainTarget_of_place hvirtual hplaceVirtual, hstart]
  cases hwalk : r.index.relative? entry.place require with
  | none =>
      -- Without a walk, both contexts look for the path on the disk.
      have hfileOf : (r.fileOf? entry.place).isSome = true := by
        rw [fileOf?, if_pos hplaceVirtual, hplace, Option.bind_some, hfile]
        rfl
      simp only [hfileOf]
      exact hfound
  | some last =>
      obtain ⟨file, hloaded, rfl⟩ := Option.map_eq_some_iff.mp hfound
      rw [relative?, hplace] at hwalk
      obtain ⟨start, hstartEntry, hwalk⟩ :=
        Option.bind_eq_some_iff.mp ((Option.bind_some entry _).symm.trans hwalk)
      obtain ⟨around, rfl, hentry⟩ := hstarts start hstartEntry
      rw [hindex] at hwalk
      rw [place_of_walk h hindex hmirror hentry hrelative hback hwalk hloaded]
      rfl

/-- In every session with an absolute root whose source tree mirrors a directory, a literal that
resolves from the path of a script resolves to the same module from the name of the script. -/
theorem resolveString_of_mirrors {home : Option String} {root : String} {defaults : AnalysisConfig}
    {settings : Settings} {disk : FileSystem} {s : Session}
    (hroot : (Path.ofString root).absolute = true)
    (h : Session.Reached (Session.new home (Path.ofString root) defaults settings disk) s)
    {tree : SourceTree} (hindex : s.resolver.index = ofTree s.resolver.root.toString tree)
    {top : List String}
    (hmirror : Mirrors (s.resolver.files s.disk) s.resolver.root top tree)
    (hlists : ListsScripts (s.resolver.files s.disk) s.resolver.root top tree)
    (horigin : s.resolver.settings.require.origin = .requiringFile) {names : List String}
    {fileName : String}
    (hscript : (s.resolver.files s.disk).isFile
      (Path.ofNames (top ++ (names ++ [fileName]))) = true)
    {require : String} (hrelative : require.toList.head? ≠ some '/')
    (hback : '\\' ∉ require.toList) (hvirtual : isVirtual require = false)
    {found : ResolvedModule} :
    let script := Path.ofNames (top ++ (names ++ [fileName]))
    (s.resolver.resolveString s.disk (some script.toString) require).1 = some found →
      (s.resolver.resolveString s.disk (some (s.resolver.nameOfPath script)) require).1 =
        some found := by
  intro script hfound
  have hwell := wellFormed_of_reached h
    (wellFormed_new hroot (Path.isProper_ofString root) home defaults settings disk)
  generalize s.resolver = r at *
  generalize s.disk = disk at *
  obtain ⟨entry, hname, hplace, hfile, hstarts⟩ :=
    exists_context hwell hindex hmirror hlists hscript
  have hentryMem := (hwell.index.mem_of_ofPlace? hplace).1
  have hcanonical : script.IsCanonical := hwell.index.isCanonical_file entry hentryMem _ hfile
  have hplaceVirtual := hwell.index.isVirtual_place entry hentryMem
  have hcontext : r.contextPath? entry.place = some script :=
    contextPath?_place hplaceVirtual hplace hfile
  have hownContext : r.contextPath? script.toString = some script :=
    contextPath?_toString hcanonical
  have hsame := hownContext.trans hcontext.symm
  rw [hname]
  refine resolveString_of_aliases (aliases_eq_of_contextPath? hsame) ?_ hfound
  intro hplain
  have hpath : (Path.ofString require).absolute = false := by
    rw [Path.absolute_ofString]
    simpa using hrelative
  have hstart := startDirectory_of_mirrors hmirror horigin hscript hcontext
  rw [plainTarget_of_file hvirtual (isVirtual_toString hcanonical.absolute_eq),
    startDirectory_eq_of_contextPath? hsame, hstart] at hplain
  exact moduleOf?_plainTarget_of_place hwell hindex hmirror hplace hfile hstart hstarts hpath hback
    hvirtual hplain

/-! ## A mirrored project -/

/-- A script `util.luau`, listed under some path. -/
def utilScript (listed : String) : SourceTree := .mk "util" "ModuleScript" [listed] [] none

/-- A project with an `init` file and the script beside it. -/
def utilProject (listed : String) : SourceTree :=
  .mk "proj" "ModuleScript" ["init.luau"] [utilScript listed] none

/-- The files of the project. -/
def utilFiles : MemoryFiles :=
  ⟨[(Path.ofNames ["proj", "init.luau"], some ""), (Path.ofNames ["proj", "util.luau"], some "")]⟩

/-- The resolver of the project. -/
def utilResolver (listed : String) : Resolver :=
  (Resolver.create none (Path.ofString "/proj") {}).setTree (utilProject listed)

theorem isModuleName_util : IsModuleName "util" where
  isEntryName := by decide
  ne_init := by decide
  ne_extended _ _ _ := (Mirrors.extended_ne (by decide)).symm

theorem hasNode_utilProject {listed : String} {names : List String} {node : SourceTree}
    (h : (utilProject listed).HasNode names node) :
    (names = [] ∧ node = utilProject listed) ∨ (names = ["util"] ∧ node = utilScript listed) := by
  induction h with
  | top => exact .inl ⟨rfl, rfl⟩
  | child _ hchild ih =>
      rcases ih with ⟨rfl, rfl⟩ | ⟨rfl, rfl⟩
      · obtain rfl := List.mem_singleton.mp hchild
        exact .inr ⟨rfl, rfl⟩
      · cases hchild

theorem isFile_utilFiles {names : List String}
    (h : utilFiles.fileSystem.isFile (Path.ofNames names) = true) :
    names = ["proj", "init.luau"] ∨ names = ["proj", "util.luau"] := by
  simp only [MemoryFiles.fileSystem, MemoryFiles.find?, utilFiles, Register.find?_cons] at h
  split at h
  · next heq => exact .inl (Path.ofNames_injective heq)
  · split at h
    · next heq => exact .inr (Path.ofNames_injective heq)
    · cases h

theorem isDirectory_utilFiles {names : List String}
    (h : utilFiles.fileSystem.isDirectory (Path.ofNames ("proj" :: names)) = true) :
    names = [] := by
  simp only [MemoryFiles.fileSystem, utilFiles, List.any_cons, List.any_nil] at h
  cases names with
  | nil => rfl
  | cons name rest =>
      cases rest with
      | nil =>
          simp [Path.startsWith, Path.ofNames, Path.empty] at h
          grind
      | cons next rest => simp [Path.startsWith, Path.ofNames, Path.empty] at h

theorem isScriptNode_utilScript {listed : String}
    (h : (utilScript listed).backing? (Path.ofNames ["proj"]) =
      some (Path.ofNames ["proj", "util.luau"])) :
    IsScriptNode utilFiles.fileSystem (Path.ofNames ["proj"]) (Path.ofNames ["proj"])
      (utilScript listed) := by
  have hthere : utilFiles.fileSystem.isFile (Path.ofNames ["proj", "util.luau"]) = true := by decide
  exact ⟨"luau", by decide, h, hthere⟩

/-- However the script is listed, the project is mirrored when the path leads to the script. -/
theorem mirrors_utilProject {listed : String}
    (h : (utilScript listed).backing? (Path.ofNames ["proj"]) =
      some (Path.ofNames ["proj", "util.luau"])) :
    Mirrors utilFiles.fileSystem (Path.ofNames ["proj"]) ["proj"] (utilProject listed) where
  isEntryName_top := by decide
  isFile_top := by decide
  isFile_beside := by decide +kernel
  isModuleName := by
    intro names node hnode child hchild
    rcases hasNode_utilProject hnode with ⟨-, rfl⟩ | ⟨-, rfl⟩
    · obtain rfl := List.mem_singleton.mp hchild
      exact isModuleName_util
    · cases hchild
  nodup := by
    intro names node hnode
    rcases hasNode_utilProject hnode with ⟨-, rfl⟩ | ⟨-, rfl⟩
    · exact List.nodup_singleton "util"
    · exact List.nodup_nil
  isDirectoryNode_top := ⟨by decide +kernel, by rfl⟩
  kind := by
    intro names node hnode child hchild
    rcases hasNode_utilProject hnode with ⟨rfl, rfl⟩ | ⟨-, rfl⟩
    · obtain rfl := List.mem_singleton.mp hchild
      exact .inr (isScriptNode_utilScript h)
    · cases hchild
  directory := by
    intro names hdirectory
    obtain rfl := isDirectory_utilFiles hdirectory
    exact ⟨utilProject listed, .top, by decide +kernel, by rfl⟩
  file := by
    intro names fileName hisFile
    have hone : ∀ name, ["proj"] ++ (names ++ [fileName]) = ["proj", name] →
        names = [] ∧ fileName = name := by
      intro name heq
      obtain ⟨hnames, hname⟩ :=
        List.append_inj' (List.append_cancel_left heq : names ++ [fileName] = [] ++ [name]) rfl
      exact ⟨hnames, List.singleton_inj.mp hname⟩
    rcases isFile_utilFiles hisFile with heq | heq
    · obtain ⟨rfl, rfl⟩ := hone _ heq
      exact ⟨utilProject listed, .top, ⟨by decide +kernel, by rfl⟩, .inl (by rfl)⟩
    · obtain ⟨rfl, rfl⟩ := hone _ heq
      exact ⟨utilProject listed, .top, ⟨by decide +kernel, by rfl⟩,
        .inr ⟨utilScript listed, by simp [utilProject, SourceTree.children],
          isScriptNode_utilScript h, h⟩⟩

theorem files_utilResolver (listed : String) :
    (utilResolver listed).files utilFiles.fileSystem = utilFiles.fileSystem :=
  FileSystem.withDocuments_empty utilFiles.fileSystem

/-- The `init` file and the instance that claims it agree on `./util`. -/
theorem resolveString_of_init :
    let start := Session.new none (Path.ofString "/proj") {} {} utilFiles.fileSystem
    let r := utilResolver "util.luau"
    let script := Path.ofNames (["proj"] ++ ([] ++ ["init.luau"]))
    let found : ResolvedModule := { name := "ProjectRoot/util" }
    Session.Reached start ⟨r, start.disk⟩ ∧
      Mirrors (r.files start.disk) r.root ["proj"] (utilProject "util.luau") ∧
      ListsScripts (r.files start.disk) r.root ["proj"] (utilProject "util.luau") ∧
      (r.files start.disk).isFile script = true ∧
      (r.resolveString start.disk (some script.toString) "./util").1 = some found ∧
      (r.resolveString start.disk (some (r.nameOfPath script)) "./util").1 = some found := by
  intro start r script found
  have hreached : Session.Reached start ⟨r, start.disk⟩ :=
    .step .start (.operation (.setTree (utilProject "util.luau")) (by rintro uri ⟨⟩))
  have hmirror : Mirrors (r.files start.disk) r.root ["proj"] (utilProject "util.luau") := by
    have hfiles : r.files start.disk = utilFiles.fileSystem := files_utilResolver "util.luau"
    rw [hfiles]
    exact mirrors_utilProject (by decide +kernel)
  have hlists : ListsScripts (r.files start.disk) r.root ["proj"] (utilProject "util.luau") := by
    intro names node hnode child hchild _
    rcases hasNode_utilProject hnode with ⟨-, rfl⟩ | ⟨-, rfl⟩
    · obtain rfl := List.mem_singleton.mp hchild
      decide +kernel
    · cases hchild
  have hscript : (r.files start.disk).isFile script = true := by decide +kernel
  have hfound : (r.resolveString start.disk (some script.toString) "./util").1 = some found := by
    decide +kernel
  exact ⟨hreached, hmirror, hlists, hscript, hfound,
    resolveString_of_mirrors (by decide) hreached rfl hmirror hlists rfl hscript (by decide)
      (by decide) (by decide +kernel) hfound⟩

/-- A script that is listed under a path with `..` at its end starts requires at itself: then its
name and its path disagree, although the tree mirrors the directory. -/
theorem resolveString_of_misspelled :
    let disk := utilFiles.fileSystem
    let r := utilResolver "util.luau/y/.."
    let script := Path.ofNames ["proj", "util.luau"]
    Mirrors (r.files disk) r.root ["proj"] (utilProject "util.luau/y/..") ∧
      (r.files disk).isFile script = true ∧
      (r.resolveString disk (some script.toString) ".").1 = some { name := "ProjectRoot" } ∧
      (r.resolveString disk (some (r.nameOfPath script)) ".").1 =
        some { name := "ProjectRoot/util" } := by
  intro disk r script
  refine ⟨?_, by decide +kernel, by decide +kernel, by decide +kernel⟩
  rw [files_utilResolver]
  exact mirrors_utilProject (by decide +kernel)

end Resolver

end LuauWorkspace
