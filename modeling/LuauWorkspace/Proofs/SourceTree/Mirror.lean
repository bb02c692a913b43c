import LuauWorkspace.Proofs.FileSystem.Candidates
import LuauWorkspace.Proofs.SourceTree.Unambiguous

/-! # Trees that mirror a directory

A tree mirrors a directory when its instances stand for the directories and scripts below it. Then
the file that is loaded for a path below the directory is the one that an instance claims. -/

namespace LuauWorkspace

/-- Whether an instance of a mirrored tree can have a name: it has no extension of a script, and is
not the name of `init` files. -/
structure IsModuleName (name : String) : Prop where
  isEntryName : IsEntryName name
  ne_init : name ≠ "init"
  ne_extended : ∀ extension ∈ Path.luauExtensions, ∀ front, name ≠ front ++ ("." ++ extension)

/-- The `init` file of a directory that has exactly one. -/
def FileSystem.soleInit? (files : FileSystem) (directory : Path) : Option Path :=
  match (FileSystem.initFiles directory).filter files.isFile with
  | [file] => some file
  | _ => none

namespace SourceTree

/-! ## Instances by names -/

/-- `node` is an instance that is reached by `names` from the top. -/
inductive HasNode (tree : SourceTree) : List String → SourceTree → Prop where
  | top : HasNode tree [] tree
  | child {names : List String} {node child : SourceTree} (h : HasNode tree names node)
      (hchild : child ∈ node.children) : HasNode tree (names ++ [child.name]) child

section HasNode

variable {tree node : SourceTree} {names : List String}

theorem hasNode_of_mem :
    ∀ location ∈ tree.locations, tree.HasNode location.names location.node :=
  locations_induction .top fun _ _ _ hchild h => .child h hchild

theorem HasNode.exists_location (h : tree.HasNode names node) :
    ∃ location ∈ tree.locations, location.names = names ∧ location.node = node := by
  induction h with
  | top => exact ⟨⟨tree, []⟩, tree.top_mem_locations, rfl, rfl⟩
  | child _ hchild ih =>
      obtain ⟨location, hmem, rfl, rfl⟩ := ih
      exact ⟨location.enter _, enter_mem hmem hchild, rfl, rfl⟩

theorem hasNode_nil (h : tree.HasNode [] node) : node = tree := by
  generalize hnames : ([] : List String) = names at h
  cases h with
  | top => rfl
  | child _ _ => simp at hnames

theorem hasNode_concat {name : String} (h : tree.HasNode (names ++ [name]) node) :
    ∃ parent, tree.HasNode names parent ∧ node ∈ parent.children ∧ node.name = name := by
  generalize hnames : names ++ [name] = all at h
  cases h with
  | top => simp at hnames
  | child h hchild =>
      obtain ⟨rfl, hname⟩ := List.append_inj' hnames rfl
      exact ⟨_, h, hchild, (List.singleton_inj.mp hname).symm⟩

/-- Where siblings have distinct names, an instance is determined by the names that lead to it. -/
theorem HasNode.unique {other : SourceTree}
    (hnodup : ∀ {names node}, tree.HasNode names node → (node.children.map name).Nodup)
    (h : tree.HasNode names node) (hother : tree.HasNode names other) : node = other := by
  induction names using List.reverseRecOn generalizing node other with
  | nil => exact (hasNode_nil h).trans (hasNode_nil hother).symm
  | append_singleton names name ih =>
      obtain ⟨parent, hparent, hnode, hname⟩ := hasNode_concat h
      obtain ⟨parent', hparent', hother, hname'⟩ := hasNode_concat hother
      obtain rfl := ih hparent hparent'
      exact List.inj_on_of_nodup_map (hnodup hparent) hnode hother (hname.trans hname'.symm)

end HasNode

/-! ## Instances for directories and scripts -/

/-- The path that an instance claims. -/
def backing? (base : Path) (node : SourceTree) : Option Path :=
  node.backingFile?.map fun file => Path.absoluteIn base (Path.ofString file)

/-- `node` stands for a directory: it claims the only `init` file in it, or else the directory. -/
structure IsDirectoryNode (files : FileSystem) (base directory : Path) (node : SourceTree) :
    Prop where
  isDirectory : files.isDirectory directory = true
  backing?_eq : node.backing? base = some ((files.soleInit? directory).getD directory)

/-- `node` stands for a script in a directory: it claims the script, and has the name of the script
without its extension. -/
def IsScriptNode (files : FileSystem) (base directory : Path) (node : SourceTree) : Prop :=
  ∃ extension ∈ Path.luauExtensions,
    node.backing? base = some (directory.child (node.name ++ ("." ++ extension))) ∧
    files.isFile (directory.child (node.name ++ ("." ++ extension))) = true

/-- The tree mirrors the directory that is reached by the names `top` from the root of the disk. Its
files are given relative to `base`. -/
structure Mirrors (files : FileSystem) (base : Path) (top : List String) (tree : SourceTree) :
    Prop where
  isEntryName_top : ∀ name ∈ top, IsEntryName name
  /-- The directory is not a file, and no script stands beside it under its name. -/
  isFile_top : files.isFile (Path.ofNames top) = false
  isFile_beside : ∀ file ∈ FileSystem.extendedFiles (Path.ofNames top), files.isFile file = false
  isModuleName : ∀ {names node}, tree.HasNode names node →
    ∀ child ∈ node.children, IsModuleName child.name
  nodup : ∀ {names node}, tree.HasNode names node → (node.children.map name).Nodup
  /-- All instances stand for a directory or a script. -/
  isDirectoryNode_top : IsDirectoryNode files base (Path.ofNames top) tree
  kind : ∀ {names node}, tree.HasNode names node → ∀ child ∈ node.children,
    IsDirectoryNode files base (Path.ofNames (top ++ (names ++ [child.name]))) child ∨
      IsScriptNode files base (Path.ofNames (top ++ names)) child
  /-- All directories below the top have an instance. -/
  directory : ∀ {names}, files.isDirectory (Path.ofNames (top ++ names)) = true →
    ∃ node, tree.HasNode names node ∧
      IsDirectoryNode files base (Path.ofNames (top ++ names)) node
  /-- All files below the top lie in a directory with an instance, whose only `init` file they are
  unless they are a script with an instance of its own. -/
  file : ∀ {names fileName}, files.isFile (Path.ofNames (top ++ (names ++ [fileName]))) = true →
    ∃ node, tree.HasNode names node ∧
      IsDirectoryNode files base (Path.ofNames (top ++ names)) node ∧
      (files.soleInit? (Path.ofNames (top ++ names)) =
          some (Path.ofNames (top ++ (names ++ [fileName]))) ∨
        ∃ child ∈ node.children, IsScriptNode files base (Path.ofNames (top ++ names)) child ∧
          child.backing? base = some (Path.ofNames (top ++ (names ++ [fileName]))))

/-- Instances for scripts list them under paths that are spelled as scripts. -/
def ListsScripts (files : FileSystem) (base : Path) (top : List String) (tree : SourceTree) :
    Prop :=
  ∀ {names node}, tree.HasNode names node → ∀ child ∈ node.children,
    IsScriptNode files base (Path.ofNames (top ++ names)) child →
    child.scriptFile?.isSome = true

/-! ## The files of instances -/

/-- How the names of an instance, from the top, and those of the file that it claims go together. -/
inductive Claims : List String → List String → Prop where
  | folder {names : List String} (h : ∀ name ∈ names, IsModuleName name) : Claims names names
  | init {names : List String} {extension : String} (h : extension ∈ Path.luauExtensions) :
      Claims names (names ++ ["init" ++ ("." ++ extension)])
  | script {names : List String} {name extension : String} (hname : IsModuleName name)
      (h : extension ∈ Path.luauExtensions) :
      Claims (names ++ [name]) (names ++ [name ++ ("." ++ extension)])

theorem not_isModuleName_extended {name extension : String}
    (h : extension ∈ Path.luauExtensions) : ¬IsModuleName (name ++ ("." ++ extension)) :=
  fun hname => hname.ne_extended extension h name rfl

/-- A file is claimed under one list of names only. -/
theorem Claims.unique {names names' file : List String} (h : Claims names file)
    (h' : Claims names' file) : names = names' := by
  have hlast : ∀ {front all : List String} {name extension : String},
      extension ∈ Path.luauExtensions → (∀ name ∈ all, IsModuleName name) →
      front ++ [name ++ ("." ++ extension)] ≠ all := by
    rintro front all name extension hextension hall rfl
    exact not_isModuleName_extended hextension (hall (name ++ ("." ++ extension)) (by simp))
  generalize hfile : file = file' at h'
  cases h with
  | folder hnames =>
      cases h' with
      | folder _ => exact hfile
      | init hextension => exact absurd hfile.symm (hlast hextension hnames)
      | script _ hextension => exact absurd hfile.symm (hlast hextension hnames)
  | init hextension =>
      cases h' with
      | folder hnames => exact absurd hfile (hlast hextension hnames)
      | init _ => exact (List.append_inj' hfile rfl).1
      | script hname hextension' =>
          have hinit := List.singleton_inj.mp (List.append_inj' hfile rfl).2
          exact absurd (Path.extended_injective hextension hextension' hinit).1.symm hname.ne_init
  | script hname hextension =>
      cases h' with
      | folder hnames => exact absurd hfile (hlast hextension hnames)
      | init hextension' =>
          have hinit := List.singleton_inj.mp (List.append_inj' hfile rfl).2
          exact absurd (Path.extended_injective hextension hextension' hinit).1 hname.ne_init
      | script _ hextension' =>
          obtain ⟨rfl, hnames⟩ := List.append_inj' hfile rfl
          have hsame := List.singleton_inj.mp hnames
          rw [(Path.extended_injective hextension hextension' hsame).1]

theorem mem_of_soleInit? {files : FileSystem} {directory file : Path}
    (h : files.soleInit? directory = some file) :
    file ∈ FileSystem.initFiles directory ∧ files.isFile file = true := by
  rw [FileSystem.soleInit?] at h
  split at h
  · next heq =>
      obtain rfl := Option.some.inj h
      exact List.mem_filter.mp (heq ▸ List.mem_singleton_self _)
  · cases h

theorem exists_of_mem_initFiles {names : List String} {file : Path}
    (h : file ∈ FileSystem.initFiles (Path.ofNames names)) :
    ∃ extension ∈ Path.luauExtensions,
      file = Path.ofNames (names ++ ["init" ++ ("." ++ extension)]) := by
  rw [FileSystem.initFiles_ofNames] at h
  obtain ⟨extension, hextension, rfl⟩ := List.mem_map.mp h
  exact ⟨extension, hextension, rfl⟩

variable {files : FileSystem} {base : Path} {top names : List String} {tree node : SourceTree}

theorem fileName?_of_scriptFile? {text : String} (h : node.scriptFile? = some text) :
    ∃ name, (Path.ofString text).fileName? = some name := by
  have hfound := List.find?_some h
  cases hname : (Path.ofString text).fileName? with
  | some name => exact ⟨name, rfl⟩
  | none => simp [Path.isScript, Path.extension?, hname] at hfound

theorem fileName?_of_backing? {text last : String} {front : List String}
    (htext : node.scriptFile? = some text)
    (h : node.backing? base = some (Path.ofNames (front ++ [last]))) :
    (Path.ofString text).fileName? = some last := by
  obtain ⟨found, hfound⟩ := fileName?_of_scriptFile? htext
  rw [backing?, backingFile?, htext] at h
  have hclaimed : Path.absoluteIn base (Path.ofString text) = Path.ofNames (front ++ [last]) :=
    Option.some.inj h
  have hpath := Path.fileName?_absoluteIn base hfound
  rw [hclaimed, Path.fileName?_ofNames_concat] at hpath
  rw [hfound, hpath]

namespace Mirrors

theorem hasPlainPlaces (h : Mirrors files base top tree) : tree.HasPlainPlaces where
  slash_not_mem location hlocation child hchild :=
    (h.isModuleName (hasNode_of_mem location hlocation) child hchild).isEntryName.2.2.2
  nodup location hlocation := h.nodup (hasNode_of_mem location hlocation)

theorem isModuleName_of_mem (h : Mirrors files base top tree) (hnode : tree.HasNode names node) :
    ∀ name ∈ names, IsModuleName name := by
  induction hnode with
  | top => exact fun _ hname => nomatch hname
  | child hparent hchild ih =>
      intro name hname
      rcases List.mem_append.mp hname with hname | hname
      · exact ih name hname
      · exact List.mem_singleton.mp hname ▸ h.isModuleName hparent _ hchild

theorem claims_of_isDirectoryNode (hnames : ∀ name ∈ names, IsModuleName name)
    (h : IsDirectoryNode files base (Path.ofNames (top ++ names)) node) :
    ∃ file, node.backing? base = some (Path.ofNames (top ++ file)) ∧ Claims names file := by
  rw [h.backing?_eq]
  cases hsole : files.soleInit? (Path.ofNames (top ++ names)) with
  | none => exact ⟨names, rfl, .folder hnames⟩
  | some file =>
      obtain ⟨extension, hextension, rfl⟩ := exists_of_mem_initFiles (mem_of_soleInit? hsole).1
      exact ⟨names ++ ["init" ++ ("." ++ extension)], by rw [List.append_assoc]; rfl,
        .init hextension⟩

/-- Every instance claims a file that goes together with its names. -/
theorem claims_of_hasNode (h : Mirrors files base top tree) (hnode : tree.HasNode names node) :
    ∃ file, node.backing? base = some (Path.ofNames (top ++ file)) ∧ Claims names file := by
  have hnames := h.isModuleName_of_mem hnode
  cases hnode with
  | top =>
      apply claims_of_isDirectoryNode hnames
      rw [List.append_nil]
      exact h.isDirectoryNode_top
  | child hparent hchild =>
      rcases h.kind hparent _ hchild with hdirectory | hscript
      · exact claims_of_isDirectoryNode hnames hdirectory
      · obtain ⟨extension, hextension, hbacking, -⟩ := hscript
        refine ⟨_, ?_, .script (h.isModuleName hparent _ hchild) hextension⟩
        rw [hbacking, Path.child_ofNames, List.append_assoc]

/-! ## The file that is loaded -/

/-- A file below the top is the `init` file of a directory or a script; an instance claims it. -/
theorem file_cases (h : Mirrors files base top tree) {fileName : String}
    (hisFile : files.isFile (Path.ofNames (top ++ (names ++ [fileName]))) = true) :
    ∃ node, tree.HasNode names node ∧ ∃ extension ∈ Path.luauExtensions,
      (fileName = "init" ++ ("." ++ extension) ∧
        node.backing? base = some (Path.ofNames (top ++ (names ++ [fileName])))) ∨
      ∃ child ∈ node.children, fileName = child.name ++ ("." ++ extension) ∧
        child.backing? base = some (Path.ofNames (top ++ (names ++ [fileName]))) := by
  obtain ⟨node, hnode, hdirectory, hsole | ⟨child, hchild, hscript, hbacking⟩⟩ := h.file hisFile
  · obtain ⟨extension, hextension, heq⟩ := exists_of_mem_initFiles (mem_of_soleInit? hsole).1
    rw [← List.append_assoc] at heq
    have hlast := List.append_inj' (Path.ofNames_injective heq) rfl
    refine ⟨node, hnode, extension, hextension, .inl ⟨List.singleton_inj.mp hlast.2, ?_⟩⟩
    rw [hdirectory.backing?_eq, hsole]
    rfl
  · obtain ⟨extension, hextension, heq, -⟩ := hscript
    rw [hbacking, Path.child_ofNames, ← List.append_assoc] at heq
    have hlast := List.append_inj' (Path.ofNames_injective (Option.some.inj heq)) rfl
    exact ⟨node, hnode, extension, hextension,
      .inr ⟨child, hchild, List.singleton_inj.mp hlast.2, hbacking⟩⟩

/-- A file that is named like an instance with the extension of a script is claimed by it. -/
theorem backing?_of_isFile (h : Mirrors files base top tree) (hnode : tree.HasNode names node)
    {name extension : String} (hextension : extension ∈ Path.luauExtensions)
    (hisFile : files.isFile
      (Path.ofNames (top ++ (names ++ [name ++ ("." ++ extension)]))) = true) :
    (name = "init" ∧ node.backing? base =
      some (Path.ofNames (top ++ (names ++ [name ++ ("." ++ extension)])))) ∨
    ∃ child ∈ node.children, child.name = name ∧ child.backing? base =
      some (Path.ofNames (top ++ (names ++ [name ++ ("." ++ extension)]))) := by
  obtain ⟨other, hother, extension', hextension', hinit | hscript⟩ := h.file_cases hisFile
  · obtain ⟨hname, hbacking⟩ := hinit
    obtain rfl := hother.unique h.nodup hnode
    exact .inl ⟨(Path.extended_injective hextension hextension' hname).1, hbacking⟩
  · obtain ⟨child, hchild, hname, hbacking⟩ := hscript
    obtain rfl := hother.unique h.nodup hnode
    exact .inr ⟨child, hchild, (Path.extended_injective hextension hextension' hname).1.symm,
      hbacking⟩

theorem not_isFile_of_isModuleName (h : Mirrors files base top tree) {name : String}
    (hname : IsModuleName name) :
    files.isFile (Path.ofNames (top ++ (names ++ [name]))) ≠ true := by
  intro hisFile
  obtain ⟨_, _, extension, hextension, ⟨heq, _⟩ | ⟨_, _, heq, _⟩⟩ := h.file_cases hisFile
  · exact hname.ne_extended extension hextension _ heq
  · exact hname.ne_extended extension hextension _ heq

theorem isEntryName_of_mem (h : Mirrors files base top tree) (hnode : tree.HasNode names node) :
    ∀ name ∈ top ++ names, IsEntryName name := by
  intro name hname
  rcases List.mem_append.mp hname with hname | hname
  · exact h.isEntryName_top name hname
  · exact (h.isModuleName_of_mem hnode name hname).isEntryName

theorem exists_of_mem_extendedFiles (h : Mirrors files base top tree)
    (hnode : tree.HasNode names node) {last : String} (hlast : '/' ∉ last.toList) {file : Path}
    (hfile : file ∈ FileSystem.extendedFiles (Path.ofNames (top ++ (names ++ [last])))) :
    ∃ extension ∈ Path.luauExtensions,
      file = Path.ofNames (top ++ (names ++ [last ++ ("." ++ extension)])) := by
  rw [← List.append_assoc, FileSystem.extendedFiles_ofNames (h.isEntryName_of_mem hnode) hlast]
    at hfile
  obtain ⟨extension, hextension, rfl⟩ := List.mem_map.mp hfile
  exact ⟨extension, hextension, by rw [List.append_assoc]⟩

/-- For the path with the names of an instance, the file that the instance claims is loaded. -/
theorem backing?_of_moduleFile? (h : Mirrors files base top tree)
    (hnode : tree.HasNode names node) {file : Path}
    (hfile : files.moduleFile? (Path.ofNames (top ++ names)) = some file) :
    node.backing? base = some file := by
  obtain ⟨hisFile, rfl | ⟨-, hinside⟩ | hbeside⟩ := FileSystem.moduleFile?_cases hfile
  · -- The names of instances are not those of files.
    rcases List.eq_nil_or_concat names with rfl | ⟨front, last, rfl⟩
    · rw [List.append_nil, h.isFile_top] at hisFile
      exact Bool.noConfusion hisFile
    · rw [List.concat_eq_append] at hisFile hnode
      have hlast := h.isModuleName_of_mem hnode last (by simp)
      exact absurd hisFile (h.not_isFile_of_isModuleName hlast)
  · -- An `init` file belongs to the instance of its directory.
    obtain ⟨extension, hextension, rfl⟩ := exists_of_mem_initFiles hinside
    rw [List.append_assoc] at hisFile ⊢
    rcases h.backing?_of_isFile hnode hextension hisFile with
      ⟨-, hbacking⟩ | ⟨child, hchild, hname, -⟩
    · exact hbacking
    · exact absurd hname (h.isModuleName hnode child hchild).ne_init
  · -- A script beside the path has the names of the instance, which are those of no other.
    rcases List.eq_nil_or_concat names with rfl | ⟨front, last, rfl⟩
    · rw [List.append_nil] at hbeside
      rw [h.isFile_beside file hbeside] at hisFile
      exact Bool.noConfusion hisFile
    · rw [List.concat_eq_append] at hbeside hnode
      obtain ⟨parent, hparent, hchild, rfl⟩ := hasNode_concat hnode
      have hname := h.isModuleName hparent node hchild
      obtain ⟨extension, hextension, rfl⟩ :=
        h.exists_of_mem_extendedFiles hparent hname.isEntryName.2.2.2 hbeside
      rcases h.backing?_of_isFile hparent hextension hisFile with
        ⟨hinit, -⟩ | ⟨child, hother, hsame, hbacking⟩
      · exact absurd hinit hname.ne_init
      · obtain rfl := List.inj_on_of_nodup_map (h.nodup hparent) hother hchild hsame
        exact hbacking

theorem extended_ne {name extension text : String} (h : '.' ∉ text.toList) :
    name ++ ("." ++ extension) ≠ text := by
  rintro rfl
  exact h (by simp)

/-- For a path below an instance whose last name has the extension of a script, the file that is
loaded is an `init` file or claimed by the child that is named without the extension. -/
theorem child_of_moduleFile? (h : Mirrors files base top tree) (hnode : tree.HasNode names node)
    {last extension : String} (hlast : '/' ∉ last.toList)
    (hextension : extension ∈ Path.luauExtensions) {file : Path}
    (hfile : files.moduleFile?
      (Path.ofNames (top ++ (names ++ [last ++ ("." ++ extension)]))) = some file) :
    last = "init" ∨
      ∃ child ∈ node.children, child.name = last ∧ child.backing? base = some file := by
  obtain ⟨hisFile, rfl | ⟨hisDirectory, -⟩ | hbeside⟩ := FileSystem.moduleFile?_cases hfile
  · exact (h.backing?_of_isFile hnode hextension hisFile).imp_left And.left
  · obtain ⟨other, hother, -⟩ := h.directory hisDirectory
    have hname := h.isModuleName_of_mem hother (last ++ ("." ++ extension)) (by simp)
    exact absurd hname (not_isModuleName_extended hextension)
  · have hslash : '/' ∉ (last ++ ("." ++ extension)).toList :=
      (FileSystem.isEntryName_extended hlast hextension).2.2.2
    obtain ⟨extension', hextension', rfl⟩ :=
      h.exists_of_mem_extendedFiles hnode hslash hbeside
    rcases h.backing?_of_isFile hnode hextension' hisFile with
      ⟨hinit, -⟩ | ⟨child, hchild, hname, -⟩
    · exact absurd hinit (extended_ne (by decide))
    · exact absurd (hname ▸ h.isModuleName hnode child hchild)
        (not_isModuleName_extended hextension)

/-! ## Where requires start -/

/-- A file below the top is claimed by the instance of its directory, where relative requires start,
or by a child of that instance, where they do not. -/
theorem start_of_isFile (h : Mirrors files base top tree)
    (hlists : ListsScripts files base top tree) {fileName : String}
    (hisFile : files.isFile (Path.ofNames (top ++ (names ++ [fileName]))) = true) :
    ∃ names' node, tree.HasNode names' node ∧
      node.backing? base = some (Path.ofNames (top ++ (names ++ [fileName]))) ∧
      ((names' = names ∧ (node.scriptFile?.all fun file => (Path.ofString file).isInit) = true) ∨
        ∃ name, names' = names ++ [name] ∧
          (node.scriptFile?.all fun file => (Path.ofString file).isInit) = false) := by
  obtain ⟨node, hnode, hdirectory, hsole | ⟨child, hchild, hscript, hbacking⟩⟩ := h.file hisFile
  · have hbacking : node.backing? base = some (Path.ofNames (top ++ (names ++ [fileName]))) := by
      rw [hdirectory.backing?_eq, hsole]
      rfl
    refine ⟨names, node, hnode, hbacking, .inl ⟨rfl, ?_⟩⟩
    cases htext : node.scriptFile? with
    | none => rfl
    | some text =>
        obtain ⟨extension, hextension, heq⟩ := exists_of_mem_initFiles (mem_of_soleInit? hsole).1
        rw [heq] at hbacking
        exact Path.isInit_of_fileName? (by decide) hextension (fileName?_of_backing? htext hbacking)
  · have hname := h.isModuleName hnode child hchild
    refine ⟨names ++ [child.name], child, .child hnode hchild, hbacking, .inr ⟨child.name, rfl, ?_⟩⟩
    obtain ⟨text, htext⟩ := Option.isSome_iff_exists.mp (hlists hnode child hchild hscript)
    obtain ⟨extension, hextension, heq, -⟩ := hscript
    rw [Path.child_ofNames] at heq
    rw [htext, Option.all_some, Path.isInit_of_fileName? hname.isEntryName.1 hextension
      (fileName?_of_backing? htext heq)]
    simpa using hname.ne_init

end Mirrors

end SourceTree

end LuauWorkspace
