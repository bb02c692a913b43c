import LuauWorkspace.Proofs.FileSystem.Candidates
import LuauWorkspace.Proofs.Resolver.Invariant

/-! # Soundness of requires

A require that resolves names an instance of the index in force or a file that is there and that no
instance claims. -/

namespace LuauWorkspace

open VirtualName

/-! ## Entries that are reached -/

namespace TreeIndex

variable {index : TreeIndex}

theorem mem_of_follow? {node next : TreeEntry} {piece : List Char}
    (hnode : node ∈ index.nodes.toList) (h : index.follow? node piece = some next) :
    next ∈ index.nodes.toList := by
  rw [follow?.eq_def] at h
  split at h
  · exact Option.some.inj h ▸ hnode
  · exact Option.some.inj h ▸ hnode
  · exact mem_of_parent? h
  · exact mem_of_child? h

theorem mem_of_foldlM_follow? {node last : TreeEntry} {pieces : List (List Char)}
    (hnode : node ∈ index.nodes.toList) (h : pieces.foldlM index.follow? node = some last) :
    last ∈ index.nodes.toList := by
  induction pieces generalizing node with
  | nil => exact Option.some.inj h ▸ hnode
  | cons piece pieces ih =>
      obtain ⟨next, hnext, hlast⟩ := Option.bind_eq_some_iff.mp h
      exact ih (mem_of_follow? hnode hnext) hlast

theorem mem_of_relative? (hindex : index.Lawful) {context require : String} {node : TreeEntry}
    (h : index.relative? context require = some node) : node ∈ index.nodes.toList := by
  obtain ⟨origin, horigin, h⟩ := Option.bind_eq_some_iff.mp h
  obtain ⟨start, hstart, h⟩ := Option.bind_eq_some_iff.mp h
  refine mem_of_foldlM_follow? ?_ h
  rw [start?] at hstart
  split at hstart
  · exact Option.some.inj hstart ▸ (hindex.mem_of_ofPlace? horigin).1
  · exact mem_of_parent? hstart

end TreeIndex

/-! ## Paths that are reached -/

namespace Resolver

variable {r : Resolver}

theorem isCanonical_path (h : r.WellFormed) (name : String) : (r.path name).IsCanonical :=
  Path.isCanonical_absoluteIn h.root (Path.isProper_ofString name)

theorem isCanonical_contextPath? (h : r.WellFormed) {name : String} {path : Path}
    (hpath : r.contextPath? name = some path) : path.IsCanonical := by
  rw [contextPath?] at hpath
  split at hpath
  · obtain ⟨node, hnode, hpath⟩ := Option.bind_eq_some_iff.mp hpath
    obtain ⟨nearest, hnearest, hfile⟩ := Option.bind_eq_some_iff.mp hpath
    have hmem := TreeIndex.mem_of_nearestWithFile? (h.index.mem_of_ofPlace? hnode).1 hnearest
    exact h.index.isCanonical_file nearest hmem path hfile
  · exact Option.some.inj hpath ▸ isCanonical_path h name

theorem isCanonical_startDirectory (h : r.WellFormed) (disk : FileSystem)
    (context : Option String) : (r.startDirectory disk context).IsCanonical := by
  rw [startDirectory]
  split
  · exact h.root
  · split
    · exact h.root
    · next path hpath =>
        obtain ⟨name, -, hname⟩ := Option.bind_eq_some_iff.mp hpath
        have hcanonical := isCanonical_contextPath? h hname
        split
        · exact hcanonical
        · cases hparent : path.parent? with
          | some parent => exact hcanonical.parent hparent
          | none => exact h.root

/-- A written target is an absolute path, though not always a canonical one. -/
theorem ofTarget_spec (h : r.WellFormed) (home : Option String) (target : String) :
    (Path.ofTarget home r.root target).absolute = true ∧
      (Path.ofTarget home r.root target).IsProper :=
  ⟨Path.absolute_join h.root.absolute_eq _,
    Path.isProper_join h.root.isProper (Path.isProper_ofString _)⟩

theorem isCanonical_resolveAlias (h : r.WellFormed) {home : Option String} {require : String}
    {aliases : Dictionary String} {path : Path}
    (hpath : Alias.resolve? home r.root aliases require = some path) : path.IsCanonical := by
  obtain ⟨⟨_, target, rest⟩, -, hpath⟩ := Option.bind_eq_some_iff.mp hpath
  obtain ⟨habsolute, hproper⟩ := ofTarget_spec h home target
  rw [← Option.some.inj hpath]
  exact Path.isCanonical_normalize (Path.absolute_join habsolute _)
    (Path.isProper_join hproper (Path.isProper_ofString _))

/-! ## Where a string leads -/

/-- A target is sound when its path is canonical or its name is the place of an instance. -/
def SoundTarget (r : Resolver) : RequireTarget → Prop
  | .path path => path.IsCanonical
  | .node name => ∃ node ∈ r.index.nodes.toList, node.place = name
  | .nowhere => True

theorem soundTarget_plainTarget (h : r.WellFormed) (disk : FileSystem) (context : Option String)
    (require : String) : r.SoundTarget (r.plainTarget disk context require) := by
  have honDisk : (Path.absoluteIn (r.startDirectory disk context)
      (Path.ofString require)).IsCanonical :=
    Path.isCanonical_absoluteIn (isCanonical_startDirectory h disk context)
      (Path.isProper_ofString require)
  simp only [plainTarget]
  split
  · split
    · next node hnode => exact ⟨node, (h.index.mem_of_ofPlace? hnode).1, rfl⟩
    · trivial
  · split
    · exact honDisk
    · split
      · next node hnode => exact ⟨node, TreeIndex.mem_of_relative? h.index.toLawful hnode, rfl⟩
      · split
        · exact honDisk
        · trivial

theorem soundTarget_target (h : r.WellFormed) (disk : FileSystem) (context : Option String)
    (require : String) : r.SoundTarget (r.target disk context require).1 := by
  rw [target_fst]
  split
  · next target _ =>
      obtain ⟨habsolute, hproper⟩ := ofTarget_spec h r.home target
      exact Path.isCanonical_normalize habsolute hproper
  · split
    · next path hpath => exact isCanonical_resolveAlias h hpath
    · exact soundTarget_plainTarget h disk context require

/-! ## Modules -/

/-- A name is sound when it is the place of an instance, or the text of a canonical path of a file
that is there and that no instance claims. -/
def SoundName (r : Resolver) (disk : FileSystem) (name : String) : Prop :=
  (isVirtual name = true ∧ ∃ node ∈ r.index.nodes.toList, node.place = name) ∨
    ∃ file : Path, file.toString = name ∧ file.absolute = true ∧ file.normalize = file ∧
      Path.ofString name = file ∧ (r.files disk).isFile file = true ∧
      ∀ node ∈ r.index.nodes.toList, node.file ≠ some file

theorem soundName_of_mem (h : r.WellFormed) (disk : FileSystem) {node : TreeEntry}
    (hmem : node ∈ r.index.nodes.toList) : r.SoundName disk node.place :=
  .inl ⟨h.index.isVirtual_place node hmem, node, hmem, rfl⟩

/-- The module in a canonical file is an instance that claims the file, or else the file itself. -/
theorem soundName_nameOfPath (h : r.WellFormed) {disk : FileSystem} {file : Path}
    (hcanonical : file.IsCanonical) (hisFile : (r.files disk).isFile file = true) :
    r.SoundName disk (r.nameOfPath file) := by
  have hsame : r.absolute file = file := hcanonical.absoluteIn_eq r.root
  simp only [nameOfPath, hsame]
  split
  · next node hnode => exact soundName_of_mem h disk (h.index.mem_of_ofFile? hnode).1
  · next hnone =>
      have hunclaimed := h.index.ofFile?_eq_none_iff.mp hnone
      rw [hcanonical.normalize_eq] at hunclaimed
      exact .inr ⟨file, rfl, hcanonical.absolute_eq, hcanonical.normalize_eq,
        hcanonical.ofString_toString, hisFile, hunclaimed⟩

theorem soundName_moduleOf? (h : r.WellFormed) {disk : FileSystem} {target : RequireTarget}
    (htarget : r.SoundTarget target) {found : ResolvedModule}
    (hfound : r.moduleOf? disk target = some found) :
    r.SoundName disk found.name ∧ found.optional = false := by
  cases target with
  | path path =>
      obtain ⟨file, hfile, rfl⟩ := Option.map_eq_some_iff.mp hfound
      obtain ⟨hcanonical, hisFile⟩ := FileSystem.isCanonical_moduleFile? htarget hfile
      exact ⟨soundName_nameOfPath h hcanonical hisFile, rfl⟩
  | node name =>
      obtain ⟨node, hmem, rfl⟩ := htarget
      obtain rfl := Option.some.inj hfound
      exact ⟨soundName_of_mem h disk hmem, rfl⟩
  | nowhere => cases hfound

theorem soundName_resolveString (h : r.WellFormed) {disk : FileSystem} {context : Option String}
    {require : String} {found : ResolvedModule}
    (hfound : (r.resolveString disk context require).1 = some found) :
    r.SoundName disk found.name ∧ found.optional = false := by
  rw [resolveString_fst] at hfound
  exact soundName_moduleOf? h (soundTarget_target h disk context require) hfound

theorem soundName_resolveWalk? (h : r.WellFormed) (disk : FileSystem) {self : Option String}
    {expr : RequireArgument} {found : ResolvedModule}
    (hfound : RequireArgument.resolveWalk? r.index self expr = some found) :
    r.SoundName disk found.name := by
  obtain ⟨place, -, hfound⟩ := Option.bind_eq_some_iff.mp hfound
  obtain ⟨node, hnode, hfound⟩ := Option.bind_eq_some_iff.mp hfound
  obtain rfl := Option.some.inj hfound
  exact soundName_of_mem h disk (h.index.mem_of_ofPlace? hnode).1

/-- In every session with an absolute root, a require that resolves names an instance of the index
in force by its place, or a file that is there and unclaimed by its canonical path. What a string
names is never optional. -/
theorem resolve_sound {home : Option String} {root : String} {defaults : AnalysisConfig}
    {settings : Settings}
    {disk : FileSystem} {s : Session} (hroot : (Path.ofString root).absolute = true)
    (h : Session.Reached (Session.new home (Path.ofString root) defaults settings disk) s)
    {context : Option String} {expr : RequireArgument} {found : ResolvedModule}
    (hfound : (s.resolver.resolve s.disk context expr).1 = some found) :
    s.resolver.SoundName s.disk found.name ∧
      ∀ require, expr = .literal require → found.optional = false := by
  have hwell := wellFormed_of_reached h
    (wellFormed_new hroot (Path.isProper_ofString root) home defaults settings disk)
  cases expr with
  | literal require =>
      obtain ⟨hsound, hoptional⟩ := soundName_resolveString hwell hfound
      exact ⟨hsound, fun _ _ => hoptional⟩
  | _ => exact ⟨soundName_resolveWalk? hwell s.disk hfound, by rintro _ ⟨⟩⟩

/-- A project with one module. -/
def singleModule : SourceTree :=
  .mk "p" "Folder" [] [.mk "Main" "ModuleScript" ["main.luau"] [] none] none

/-- Its file. -/
def singleFile : MemoryFiles := MemoryFiles.empty.insert (Path.ofString "/p/main.luau") (some "")

/-- The path of a file that an instance claims leads to the instance. -/
theorem resolve_sound_of_claimed :
    let start := Session.new none (Path.ofString "/p") {} {} singleFile.fileSystem
    let s : Session := ⟨start.resolver.setTree singleModule, start.disk⟩
    let found : ResolvedModule := { name := "ProjectRoot/Main" }
    (Path.ofString "/p").absolute = true ∧ Session.Reached start s ∧
      (s.resolver.resolve s.disk none (.literal "./main")).1 = some found ∧
      s.resolver.SoundName s.disk found.name ∧
      ∀ require, RequireArgument.literal "./main" = .literal require → found.optional = false := by
  intro start s found
  have hroot : (Path.ofString "/p").absolute = true := by decide
  have hreached : Session.Reached start s :=
    .step .start (.operation (.setTree singleModule) (by rintro uri ⟨⟩))
  have hfound : (s.resolver.resolve s.disk none (.literal "./main")).1 = some found := by
    decide +kernel
  exact ⟨hroot, hreached, hfound, resolve_sound hroot hreached hfound⟩

end Resolver

end LuauWorkspace
