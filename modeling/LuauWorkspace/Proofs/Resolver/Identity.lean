import LuauWorkspace.Proofs.Resolver.Soundness

/-! # Names of files

The name of a file leads back to the file, unless a later instance has taken the place of the one
that claims it. -/

namespace LuauWorkspace

open VirtualName

namespace TreeIndex

variable {index : TreeIndex}

/-- A file is kept when no instance claims it, or when the last one that claims it is the last one
at its place. -/
def Keeps (index : TreeIndex) (file : Path) : Prop :=
  (∀ node ∈ index.nodes.toList, node.file ≠ some file) ∨
    ∃ before node after, index.nodes.toList = before ++ node :: after ∧ node.file = some file ∧
      ∀ later ∈ after, later.file ≠ some file ∧ later.place ≠ node.place

/-- When some later entry satisfies the condition, a later one is found. -/
theorem findLast?_mem_after {condition : TreeEntry → Bool} {before after : List TreeEntry}
    {node found : TreeEntry} (heq : index.nodes.toList = before ++ node :: after)
    (hlater : ∃ later ∈ after, condition later = true)
    (hfound : index.findLast? condition = some found) : found ∈ after := by
  obtain ⟨later, hmem, hcondition⟩ := hlater
  have hreverse : index.nodes.toList.reverse = after.reverse ++ node :: before.reverse := by
    rw [heq]
    simp
  rw [findLast?, hreverse, List.find?_append] at hfound
  cases hafter : after.reverse.find? condition with
  | none =>
      exact absurd hcondition (List.find?_eq_none.mp hafter later (List.mem_reverse.mpr hmem))
  | some other =>
      rw [hafter, Option.some_or] at hfound
      obtain rfl := Option.some.inj hfound
      exact List.mem_reverse.mp (List.mem_of_find?_eq_some hafter)

end TreeIndex

namespace Resolver

variable {r : Resolver}

/-! ## Files by their own names -/

theorem isVirtual_toString {p : Path} (h : p.absolute = true) : isVirtual p.toString = false := by
  rw [Bool.eq_false_iff]
  intro hvirtual
  obtain ⟨top, htop, rest, htext, -⟩ := isVirtual_iff.mp hvirtual
  rw [Path.toString, if_pos h, String.toList_append] at htext
  rcases List.mem_cons.mp htop with rfl | htop
  · exact absurd (List.cons.inj htext).1 (by decide)
  · obtain rfl := List.mem_singleton.mp htop
    exact absurd (List.cons.inj htext).1 (by decide)

theorem path_toString {file : Path} (h : file.IsCanonical) : r.path file.toString = file := by
  rw [path, h.ofString_toString]
  exact h.absoluteIn_eq r.root

theorem fileOf?_toString {file : Path} (h : file.IsCanonical) :
    r.fileOf? file.toString = some file := by
  rw [fileOf?, if_neg (by simp [isVirtual_toString h.absolute_eq]), path_toString h]

theorem contextPath?_toString {file : Path} (h : file.IsCanonical) :
    r.contextPath? file.toString = some file := by
  rw [contextPath?, if_neg (by simp [isVirtual_toString h.absolute_eq]), path_toString h]

/-! ## Files by their places -/

/-- An instance that is found at its place stands for its own file. -/
theorem contextPath?_place {node : TreeEntry} {file : Path}
    (hvirtual : isVirtual node.place = true) (hplace : r.index.ofPlace? node.place = some node)
    (hfile : node.file = some file) : r.contextPath? node.place = some file := by
  have hnearest : r.index.nearestWithFile? node = some node :=
    List.find?_cons_of_pos (by simp [hfile])
  rw [contextPath?, if_pos hvirtual, hplace]
  simp only [Option.bind_eq_bind, Option.bind_some, hnearest, hfile]

/-- The name of a kept file is read back as the file, both where the file itself is asked for and
where a file that stands for the module is. -/
theorem nameOfPath_spec (h : r.WellFormed) {p : Path} (hp : p.IsProper)
    (hkeeps : r.index.Keeps (r.absolute p)) :
    r.fileOf? (r.nameOfPath p) = some (r.absolute p) ∧
      r.contextPath? (r.nameOfPath p) = some (r.absolute p) := by
  have hcanonical : (r.absolute p).IsCanonical := Path.isCanonical_absoluteIn h.root hp
  rcases hkeeps with hunclaimed | ⟨before, node, after, heq, hfile, hlater⟩
  · have hnone : r.index.ofFile? (r.absolute p) = none := by
      rw [h.index.ofFile?_eq_none_iff, hcanonical.normalize_eq]
      exact hunclaimed
    simp only [nameOfPath, hnone]
    exact ⟨fileOf?_toString hcanonical, contextPath?_toString hcanonical⟩
  · have hvirtual : isVirtual node.place = true :=
      h.index.isVirtual_place node (by rw [heq]; simp)
    have hclaims : r.index.ofFile? (r.absolute p) = some node := by
      rw [h.index.ofFile?_eq]
      apply TreeIndex.findLast?_of_after heq
      · simp [hfile, hcanonical.normalize_eq]
      · intro later hmem
        simpa [hcanonical.normalize_eq] using (hlater later hmem).1
    have hplace : r.index.ofPlace? node.place = some node := by
      rw [h.index.ofPlace?_eq]
      apply TreeIndex.findLast?_of_after heq
      · simp
      · intro later hmem
        simpa using (hlater later hmem).2
    simp only [nameOfPath, hclaims]
    refine ⟨?_, contextPath?_place hvirtual hplace hfile⟩
    rw [fileOf?, if_pos hvirtual, hplace, Option.bind_some, hfile]

/-- Only kept files are read back from their names. -/
theorem keeps_of_fileOf? (h : r.WellFormed) {p : Path} (hp : p.IsProper)
    (hback : r.fileOf? (r.nameOfPath p) = some (r.absolute p)) :
    r.index.Keeps (r.absolute p) := by
  have hcanonical : (r.absolute p).IsCanonical := Path.isCanonical_absoluteIn h.root hp
  cases hclaims : r.index.ofFile? (r.absolute p) with
  | none =>
      have hunclaimed := h.index.ofFile?_eq_none_iff.mp hclaims
      rw [hcanonical.normalize_eq] at hunclaimed
      exact .inl hunclaimed
  | some node =>
      obtain ⟨hmem, hfile⟩ := h.index.mem_of_ofFile? hclaims
      rw [hcanonical.normalize_eq] at hfile
      obtain ⟨before, after, heq, hafter⟩ :=
        TreeIndex.exists_after_of_findLast? ((h.index.ofFile?_eq _).symm.trans hclaims)
      have hlater : ∀ later ∈ after, later.file ≠ some (r.absolute p) := by
        intro later hlater
        simpa [hcanonical.normalize_eq] using hafter later hlater
      refine .inr ⟨before, node, after, heq, hfile, fun later hin => ⟨hlater later hin, ?_⟩⟩
      intro hsame
      -- A later instance at the place would be found instead, and it claims another file.
      simp only [nameOfPath, hclaims] at hback
      rw [fileOf?, if_pos (h.index.isVirtual_place node hmem)] at hback
      obtain ⟨found, hfound, hfoundFile⟩ := Option.bind_eq_some_iff.mp hback
      rw [h.index.ofPlace?_eq] at hfound
      have hthere : ∃ later ∈ after, (later.place == node.place) = true :=
        ⟨later, hin, beq_iff_eq.mpr hsame⟩
      exact hlater found (TreeIndex.findLast?_mem_after heq hthere hfound) hfoundFile

/-- In every session with an absolute root, the name of a file is read back as the file exactly when
the file is kept; then the uri, the text and the configuration of the name are those of the file. -/
theorem fileOf?_nameOfPath_iff {home : Option String} {root : String} {defaults : AnalysisConfig}
    {settings : Settings} {disk : FileSystem} {s : Session}
    (hroot : (Path.ofString root).absolute = true)
    (h : Session.Reached (Session.new home (Path.ofString root) defaults settings disk) s)
    (path : String) :
    let r := s.resolver
    let file := r.absolute (Path.ofString path)
    let name := r.nameOfPath (Path.ofString path)
    (r.fileOf? name = some file ↔ r.index.Keeps file) ∧
      (r.index.Keeps file →
        r.uri? name = Uri.ofPath? file ∧
        r.document? s.disk name = r.documentOfPath? s.disk file ∧
        r.config s.disk name = r.config s.disk file.toString) := by
  intro r file name
  have hwell : r.WellFormed := wellFormed_of_reached h
    (wellFormed_new hroot (Path.isProper_ofString root) home defaults settings disk)
  have hproper := Path.isProper_ofString path
  have hcanonical : file.IsCanonical := Path.isCanonical_absoluteIn hwell.root hproper
  refine ⟨⟨keeps_of_fileOf? hwell hproper, fun hkeeps => (nameOfPath_spec hwell hproper hkeeps).1⟩,
    fun hkeeps => ?_⟩
  obtain ⟨hfile, hcontext⟩ := nameOfPath_spec hwell hproper hkeeps
  refine ⟨?_, ?_, ?_⟩
  · rw [uri?, hfile, Option.bind_some]
  · rw [document?, hfile]
    rfl
  · have hdirectory : r.directoryOf? s.disk name = r.directoryOf? s.disk file.toString := by
      rw [directoryOf?, directoryOf?, hcontext, contextPath?_toString hcanonical]
    rw [config, config, hdirectory]

/-- A project with two modules of one name. -/
def namesakes : SourceTree :=
  .mk "proj" "Folder" [] [.mk "A" "ModuleScript" ["a.luau"] [] none,
    .mk "A" "ModuleScript" ["b.luau"] [] none] none

/-- The later of two instances at one place keeps its file. -/
theorem fileOf?_nameOfPath_of_later :
    let start := Session.new none (Path.ofString "/proj") {} {} MemoryFiles.empty.fileSystem
    let r := start.resolver.setTree namesakes
    let file := r.absolute (Path.ofString "b.luau")
    let name := r.nameOfPath (Path.ofString "b.luau")
    (Path.ofString "/proj").absolute = true ∧ Session.Reached start ⟨r, start.disk⟩ ∧
      name = "ProjectRoot/A" ∧ (r.fileOf? name = some file ↔ r.index.Keeps file) ∧
      (r.index.Keeps file →
        r.uri? name = Uri.ofPath? file ∧
        r.document? start.disk name = r.documentOfPath? start.disk file ∧
        r.config start.disk name = r.config start.disk file.toString) := by
  intro start r file name
  have hroot : (Path.ofString "/proj").absolute = true := by decide
  have hreached : Session.Reached start ⟨r, start.disk⟩ :=
    .step .start (.operation (.setTree namesakes) (by rintro uri ⟨⟩))
  have hname : name = "ProjectRoot/A" := by decide +kernel
  exact ⟨hroot, hreached, hname, fileOf?_nameOfPath_iff hroot hreached "b.luau"⟩

/-- The earlier one does not: its name is read back as the file of the later one. -/
theorem fileOf?_nameOfPath_namesake :
    ¬∀ (root path : String) (tree : SourceTree), (Path.ofString root).absolute = true →
      let r := (Resolver.create none (Path.ofString root) {}).setTree tree
      r.fileOf? (r.nameOfPath (Path.ofString path)) = some (r.absolute (Path.ofString path)) := by
  intro h
  have hback := h "/proj" "a.luau" namesakes (by decide)
  exact absurd hback (by decide +kernel)

end Resolver

end LuauWorkspace
