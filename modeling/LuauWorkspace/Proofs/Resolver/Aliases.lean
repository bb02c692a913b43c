import LuauWorkspace.Proofs.Require.Alias
import LuauWorkspace.Proofs.Resolver.Cascade
import LuauWorkspace.Proofs.Resolver.SameFiles

/-! # Where aliases lead

A require that begins with an alias leads below the directory that the alias stands for: by the
nearest configuration file that sets it, else by the settings. The longest alias counts. -/

namespace LuauWorkspace

namespace Path

/-- What is above a canonical path is canonical. -/
theorem IsCanonical.of_mem_lineage {p q : Path} (h : p.IsCanonical) (hmem : q ∈ p.lineage) :
    q.IsCanonical := by
  obtain ⟨names, rfl, hnames⟩ := h
  obtain ⟨segments, hprefix, rfl⟩ := List.mem_map.mp hmem
  obtain ⟨rest, hrest⟩ := (List.mem_inits _ _).mp hprefix
  obtain ⟨front, back, rfl, rfl, -⟩ := List.map_eq_append_iff.mp hrest.symm
  exact ⟨front, rfl, fun name hname => hnames name (List.mem_append_left back hname)⟩

end Path

namespace Resolver

variable {r : Resolver} {disk : FileSystem} {context : Option String}

/-! ## Tokens and what they stand for -/

/-- The configuration files that count in a module. There are none without a module, or when it
belongs to no directory. -/
def contextLayers (r : Resolver) (disk : FileSystem) (context : Option String) :
    List ConfigLayer :=
  match context.bind (r.directoryOf? disk) with
  | some directory => r.configLayers disk directory
  | none => []

/-- The tokens that are aliases in a module, with what they stand for. -/
inductive StandsFor (r : Resolver) (disk : FileSystem) (context : Option String) :
    String → Path → Prop where
  /-- Of the configuration files that set an alias the nearest one decides. Its directory is where
  relative targets start. -/
  | file {farther nearer : List ConfigLayer} {layer : ConfigLayer} {name target : String}
      {expanded : Path} (hlayers : r.contextLayers disk context = farther ++ layer :: nearer)
      (htarget : layer.target? name = some target)
      (hnearer : ∀ other ∈ nearer, other.target? name = none)
      (hexpanded : Path.Expands r.home target expanded) :
      StandsFor r disk context ("@" ++ name) (layer.directory.join expanded)
  /-- The settings decide where no configuration file does. Relative targets start at the root. -/
  | settings {token target : String} {expanded : Path}
      (htarget : r.settings.require.directoryAliases.find? token = some target)
      (hlayers : ∀ layer ∈ r.contextLayers disk context, ∀ name, token = "@" ++ name →
        layer.target? name = none)
      (hexpanded : Path.Expands r.home target expanded) :
      StandsFor r disk context token (r.root.join expanded)

/-! ## The table of a module -/

theorem config_fst (hcoherent : Coherent r disk r.configs) (name : String) :
    (r.config disk name).1 =
      r.defaults.applyLayers r.home (r.contextLayers disk (some name)) := by
  rw [config, contextLayers, Option.bind_some]
  cases r.directoryOf? disk name with
  | none => rfl
  | some directory =>
      have hconfig : (r.configOfDirectory disk directory).1 = r.configAt disk directory :=
        (cascade_spec hcoherent directory).1
      exact hconfig.trans (configAt_eq_applyLayers r disk directory)

/-- The table of a module is that of the settings with the aliases of the configuration put into
it. -/
theorem aliases_fst (hcoherent : Coherent r disk r.configs) (hdefaults : r.defaults.aliases = [])
    (context : Option String) :
    (r.aliases disk context).1 = r.settings.require.directoryAliases.insertAll
      (r.defaults.applyLayers r.home (r.contextLayers disk context)).requireAliases := by
  cases context with
  | none =>
      have hnone : r.defaults.requireAliases = [] := by
        rw [AnalysisConfig.requireAliases, hdefaults, List.map_nil]
      rw [contextLayers, Option.bind_none]
      exact congrArg (Dictionary.insertAll _) hnone.symm
  | some name =>
      rw [← config_fst hcoherent name]
      rfl

theorem isSorted_aliases (hcoherent : Coherent r disk r.configs)
    (hdefaults : r.defaults.aliases = [])
    (hsettings : r.settings.require.directoryAliases.IsSorted) (context : Option String) :
    (r.aliases disk context).1.IsSorted := by
  rw [aliases_fst hcoherent hdefaults]
  exact Dictionary.isSorted_insertAll hsettings _

/-- What the configuration files set counts before the settings. -/
theorem find?_aliases (hcoherent : Coherent r disk r.configs) (hdefaults : r.defaults.aliases = [])
    (context : Option String) (token : String) :
    (r.aliases disk context).1.find? token =
      ((r.defaults.applyLayers r.home (r.contextLayers disk context)).requireAliases.find? token <|>
        r.settings.require.directoryAliases.find? token) := by
  have hsorted : r.defaults.aliases.IsSorted := hdefaults ▸ Dictionary.isSorted_nil
  rw [aliases_fst hcoherent hdefaults]
  exact Dictionary.find?_insertAll (AnalysisConfig.isSorted_requireAliases
    (AnalysisConfig.isSorted_aliases_applyLayers r.home hsorted _)) _ token

theorem isSorted_of_mem_contextLayers {layer : ConfigLayer}
    (h : layer ∈ r.contextLayers disk context) : layer.file.IsSorted := by
  rw [contextLayers] at h
  split at h
  · exact isSorted_of_mem_configLayers h
  · cases h

/-- Of the configuration files of a module the nearest one that sets an alias decides. -/
theorem find?_aliases_applyLayers (hdefaults : r.defaults.aliases = []) (name : String) :
    (r.defaults.applyLayers r.home (r.contextLayers disk context)).aliases.find? name =
      AnalysisConfig.lastSet? (·.alias? r.home name) (r.contextLayers disk context) := by
  have hsorted : ∀ layer ∈ r.contextLayers disk context, layer.file.IsSorted :=
    fun _ hlayer => isSorted_of_mem_contextLayers hlayer
  have hwins := AnalysisConfig.get_applyLayers (·.aliases.find? name) (·.alias? r.home name)
    (fun config layer hlayer => AnalysisConfig.find?_aliases_apply (hsorted layer hlayer) name)
    r.defaults
  rw [hwins, hdefaults]
  cases AnalysisConfig.lastSet? (·.alias? r.home name) (r.contextLayers disk context) with
  | some path => rfl
  | none => rfl

theorem alias?_eq (home : Option String) (layer : ConfigLayer) (name : String) :
    layer.alias? home name =
      (layer.target? name).map (AnalysisConfig.aliasTarget home layer.directory) := rfl

/-! ## Tokens in the table -/

theorem isCanonical_of_mem_contextLayers (hwell : r.WellFormed) {layer : ConfigLayer}
    (h : layer ∈ r.contextLayers disk context) : layer.directory.IsCanonical := by
  rw [contextLayers] at h
  split at h
  · next directory hdirectory =>
      obtain ⟨name, -, hdirectory⟩ := Option.bind_eq_some_iff.mp hdirectory
      obtain ⟨place, hplace, hlayer⟩ := List.mem_filterMap.mp h
      obtain ⟨file, -, rfl⟩ := Option.map_eq_some_iff.mp hlayer
      have hlineage : place ∈ directory.lineage := by
        rw [chain] at hplace
        split at hplace
        · exact List.dropWhile_subset _ hplace
        · exact hplace
      exact (isCanonical_directoryOf? hwell hdirectory).of_mem_lineage hlineage
  · cases h

/-- What a token stands for is found in the table of the module. Targets in the table name the same
paths when they are taken under the root. -/
theorem StandsFor.find?_eq (hwell : r.WellFormed) (hcoherent : Coherent r disk r.configs)
    (hdefaults : r.defaults.aliases = []) {token : String} {base : Path}
    (h : r.StandsFor disk context token base) :
    ∃ target, (r.aliases disk context).1.find? token = some target ∧
      ∀ p, Path.absoluteIn (Path.ofTarget r.home r.root target) p = Path.absoluteIn base p := by
  have hfind := find?_aliases hcoherent hdefaults context
  cases h with
  | @file farther nearer layer name target expanded hlayers htarget hnearer hexpanded =>
      rw [← hexpanded.ofTarget_eq]
      have hdirectory : layer.directory.IsCanonical :=
        isCanonical_of_mem_contextLayers hwell (by rw [hlayers]; simp)
      have habsolute : (Path.ofTarget r.home layer.directory target).absolute = true :=
        Path.absolute_join hdirectory.absolute_eq _
      have hproper : (Path.ofTarget r.home layer.directory target).IsProper :=
        Path.isProper_join hdirectory.isProper (Path.isProper_ofString _)
      have hset : AnalysisConfig.lastSet? (·.alias? r.home name) (r.contextLayers disk context) =
          some (AnalysisConfig.aliasTarget r.home layer.directory target) := by
        refine AnalysisConfig.lastSet?_eq_some_iff.mpr
          ⟨farther, layer, nearer, hlayers, ?_, fun other hother => ?_⟩
        · rw [alias?_eq, htarget, Option.map_some]
        · rw [alias?_eq, hnearer other hother, Option.map_none]
      have hrequire := AnalysisConfig.find?_requireAliases_eq_some_iff.mpr
        ⟨name, _, rfl, (find?_aliases_applyLayers hdefaults name).trans hset, rfl⟩
      refine ⟨_, by rw [hfind, hrequire]; rfl, fun p => ?_⟩
      rw [AnalysisConfig.aliasTarget,
        (Path.isCanonical_normalize habsolute hproper).ofTarget_toString,
        Path.absoluteIn_normalize]
  | @settings _ target expanded htarget hlayers hexpanded =>
      rw [← hexpanded.ofTarget_eq]
      have hunset : (r.defaults.applyLayers r.home
          (r.contextLayers disk context)).requireAliases.find? token = none := by
        refine Option.eq_none_iff_forall_ne_some.mpr fun text hset => ?_
        obtain ⟨name, path, hname, hpath, -⟩ :=
          AnalysisConfig.find?_requireAliases_eq_some_iff.mp hset
        have hnone : AnalysisConfig.lastSet? (·.alias? r.home name)
            (r.contextLayers disk context) = none := by
          refine AnalysisConfig.lastSet?_eq_none_iff.mpr fun layer hlayer => ?_
          rw [alias?_eq, hlayers layer hlayer name hname, Option.map_none]
        rw [find?_aliases_applyLayers hdefaults, hnone] at hpath
        cases hpath
      exact ⟨target, by rw [hfind, hunset, htarget]; rfl, fun p => rfl⟩

/-- Every token of the table stands for something. -/
theorem exists_standsFor (hcoherent : Coherent r disk r.configs)
    (hdefaults : r.defaults.aliases = []) {token target : String}
    (h : (r.aliases disk context).1.find? token = some target) :
    ∃ base, r.StandsFor disk context token base := by
  rw [find?_aliases hcoherent hdefaults] at h
  cases hset : (r.defaults.applyLayers r.home
      (r.contextLayers disk context)).requireAliases.find? token with
  | some text =>
      obtain ⟨name, path, rfl, hpath, -⟩ :=
        AnalysisConfig.find?_requireAliases_eq_some_iff.mp hset
      rw [find?_aliases_applyLayers hdefaults, AnalysisConfig.lastSet?_eq_some_iff] at hpath
      obtain ⟨farther, layer, nearer, hlayers, halias, hnearer⟩ := hpath
      obtain ⟨target, htarget, -⟩ := Option.map_eq_some_iff.mp halias
      obtain ⟨expanded, hexpanded⟩ := Path.exists_expands r.home target
      exact ⟨_, .file hlayers htarget
        (fun other hother => Option.map_eq_none_iff.mp (hnearer other hother)) hexpanded⟩
  | none =>
      rw [hset] at h
      obtain ⟨expanded, hexpanded⟩ := Path.exists_expands r.home target
      refine ⟨_, .settings h (fun layer hlayer name hname => ?_) hexpanded⟩
      have hnone : AnalysisConfig.lastSet? (·.alias? r.home name)
          (r.contextLayers disk context) = none := by
        rw [← find?_aliases_applyLayers hdefaults]
        refine Option.eq_none_iff_forall_ne_some.mpr fun path hpath => ?_
        have hfound := AnalysisConfig.find?_requireAliases_eq_some_iff.mpr
          ⟨name, path, hname, hpath, rfl⟩
        rw [hset] at hfound
        cases hfound
      exact Option.map_eq_none_iff.mp (AnalysisConfig.lastSet?_eq_none_iff.mp hnone layer hlayer)

/-! ## Requires that begin with an alias -/

/-- `token` is the longest alias in a module that a require begins with. It stands for `base`, and
the require goes on with `rest`. -/
structure IsLongest (r : Resolver) (disk : FileSystem) (context : Option String)
    (require token : String) (base : Path) (rest : List Char) : Prop where
  standsFor : r.StandsFor disk context token base
  begins : Alias.Begins token require rest
  longest : ∀ other base' rest', r.StandsFor disk context other base' →
    Alias.Begins other require rest' → other.length ≤ token.length

theorem target_of_isLongest (hwell : r.WellFormed) (hcoherent : Coherent r disk r.configs)
    (hdefaults : r.defaults.aliases = [])
    (hsettings : r.settings.require.directoryAliases.IsSorted) {require token : String}
    {base : Path} {rest : List Char}
    (hfile : r.settings.require.fileAliases.find? require = none)
    (h : r.IsLongest disk context require token base rest) :
    (r.target disk context require).1 = .path (Path.absoluteIn base
      (Path.ofString (String.ofList (Path.dropSeparators rest)))) := by
  obtain ⟨target, hfind, hbase⟩ := h.standsFor.find?_eq hwell hcoherent hdefaults
  have hlongest : Alias.longest? (r.aliases disk context).1 require =
      some (token, target, rest) := by
    refine (Alias.longest?_eq_some_iff (isSorted_aliases hcoherent hdefaults hsettings _)).mpr
      ⟨hfind, h.begins, fun other target' rest' hother hbegins => ?_⟩
    obtain ⟨base', hstands⟩ := exists_standsFor hcoherent hdefaults hother
    exact h.longest other base' rest' hstands hbegins
  rw [target_fst, hfile]
  simp only [Alias.resolve?, hlongest, Option.bind_eq_bind, Option.bind_some, Option.pure_def,
    hbase]

theorem exists_isLongest (hwell : r.WellFormed) (hcoherent : Coherent r disk r.configs)
    (hdefaults : r.defaults.aliases = [])
    (hsettings : r.settings.require.directoryAliases.IsSorted) {require token : String}
    {base : Path} {rest : List Char} (hstands : r.StandsFor disk context token base)
    (hbegins : Alias.Begins token require rest) :
    ∃ token base rest, r.IsLongest disk context require token base rest := by
  have hsorted := isSorted_aliases hcoherent hdefaults hsettings context
  obtain ⟨target, hfind, -⟩ := hstands.find?_eq hwell hcoherent hdefaults
  obtain ⟨token, target, rest, hlongest⟩ := Alias.exists_longest? hsorted hfind hbegins
  obtain ⟨hfound, hfits, hall⟩ := (Alias.longest?_eq_some_iff hsorted).mp hlongest
  obtain ⟨base, hbase⟩ := exists_standsFor hcoherent hdefaults hfound
  refine ⟨token, base, rest, hbase, hfits, fun other base' rest' hother hrest => ?_⟩
  obtain ⟨target', hfind', -⟩ := hother.find?_eq hwell hcoherent hdefaults
  exact hall other target' rest' hfind' hrest

/-! ## In a session -/

theorem Outcome.defaults_eq {after : Resolver} {operation : Operation}
    (h : r.Outcome disk operation after) : after.defaults = r.defaults := by
  cases h with
  | unchanged => rfl
  | documents huri hothers =>
      rw [putDocuments]
      split
      · rfl
      · rfl
  | forgotten hindex => rfl
  | plugin => rfl
  | @asked query =>
      obtain ⟨configs, hkeeps⟩ := r.ask_keeps disk query
      rw [hkeeps]

theorem defaults_of_reached {start s : Session} (h : Session.Reached start s) :
    s.resolver.defaults = start.resolver.defaults := by
  induction h with
  | start => rfl
  | step _ hs ih =>
      cases hs with
      | operation operation _ => exact (outcome_run _ _ operation).defaults_eq.trans ih
      | diskChange _ => exact ih

theorem reached_of_settled {start s : Session} (h : Session.Settled start s) :
    Session.Reached start s := by
  induction h with
  | start => exact .start
  | forgotten h hs _ => exact .step h hs
  | step _ hs _ ih => exact .step ih hs

/-- In every settled session with an absolute root, a require that is no file alias and begins with
an alias leads below the directory that the longest such alias stands for, and nowhere else. -/
theorem resolveString_of_alias {home : Option String} {root : String} {defaults : AnalysisConfig}
    {settings : Settings} {disk : FileSystem} {s : Session}
    (hroot : (Path.ofString root).absolute = true) (hdefaults : defaults.aliases = [])
    (h : Session.Settled (Session.new home (Path.ofString root) defaults settings disk) s)
    (hsettings : s.resolver.settings.require.directoryAliases.IsSorted)
    (context : Option String) {require : String}
    (hfile : s.resolver.settings.require.fileAliases.find? require = none) :
    (∀ token base rest below, s.resolver.IsLongest s.disk context require token base rest →
      Path.IsStripped rest below →
        (s.resolver.resolveString s.disk context require).1 =
          s.resolver.moduleAt? s.disk
            (Path.absoluteIn base (Path.ofString (String.ofList below)))) ∧
    ((∃ token base rest, s.resolver.StandsFor s.disk context token base ∧
        Alias.Begins token require rest) →
      ∃ token base rest, s.resolver.IsLongest s.disk context require token base rest) := by
  have hreached := reached_of_settled h
  have hwell := wellFormed_of_reached hreached
    (wellFormed_new hroot (Path.isProper_ofString root) home defaults settings disk)
  have hcoherent := coherent_of_settled h
  have hnone : s.resolver.defaults.aliases = [] :=
    (congrArg AnalysisConfig.aliases (defaults_of_reached hreached)).trans hdefaults
  constructor
  · intro token base rest below hlongest hstripped
    rw [resolveString_fst, target_of_isLongest hwell hcoherent hnone hsettings hfile hlongest,
      ← hstripped.eq_dropSeparators]
    rfl
  · rintro ⟨token, base, rest, hstands, hbegins⟩
    exact exists_isLongest hwell hcoherent hnone hsettings hstands hbegins

/-- A project in which both configuration files set the alias `x`, the nearer one to a directory
below the home directory. -/
def aliasedFiles : MemoryFiles :=
  let above := "\x7b\"aliases\": \x7b\"x\": \"lib\"\x7d\x7d"
  let below := "\x7b\"aliases\": \x7b\"x\": \"~/vendor\"\x7d\x7d"
  (((MemoryFiles.empty.insert (Path.ofString "/p/.luaurc") (some above)).insert
    (Path.ofString "/p/q/.luaurc") (some below)).insert
      (Path.ofString "/p/lib/a.luau") (some "return 1")).insert
        (Path.ofString "/home/tester/vendor/a.luau") (some "return 2")

/-- Settings with the same alias, and a shorter one. -/
def aliasedSettings : Settings :=
  { require := { directoryAliases := [("@", "all"), ("@x", "old")] } }

/-- The configuration file that is nearer to the asking module decides. -/
theorem resolveString_of_alias_nearer :
    let start := Session.new (some "/home/tester") (Path.ofString "/p") {} aliasedSettings
      aliasedFiles.fileSystem
    let r := start.resolver
    let context := some "/p/q/main.luau"
    (Path.ofString "/p").absolute = true ∧ Session.Settled start start ∧
      r.settings.require.directoryAliases.IsSorted ∧
      r.settings.require.fileAliases.find? "@x/a" = none ∧
      r.IsLongest start.disk context "@x/a" "@x" (Path.ofString "/home/tester/vendor")
        ['/', 'a'] ∧
      Path.IsStripped ['/', 'a'] ['a'] ∧
      (r.resolveString start.disk context "@x/a").1 =
        some { name := "/home/tester/vendor/a.luau" } := by
  intro start r context
  have hroot : (Path.ofString "/p").absolute = true := by decide
  have hwell : r.WellFormed :=
    wellFormed_new hroot (Path.isProper_ofString "/p") (some "/home/tester") {} aliasedSettings _
  have hcoherent : Coherent r start.disk r.configs := coherent_nil r start.disk
  have hsettings : r.settings.require.directoryAliases.IsSorted := by
    decide
  have htable : (r.aliases start.disk context).1 =
      [("@", "all"), ("@x", "/home/tester/vendor")] := by
    decide +kernel
  have hlayers : r.contextLayers start.disk context =
      [⟨Path.ofString "/p", { aliases := some [("x", "lib")] }⟩,
        ⟨Path.ofString "/p/q", { aliases := some [("x", "~/vendor")] }⟩] := by
    decide +kernel
  have hstripped : Path.IsStripped ['/', 'a'] ['a'] := ⟨⟨['/'], by simp, rfl⟩, by simp⟩
  have hlongest : r.IsLongest start.disk context "@x/a" "@x" (Path.ofString "/home/tester/vendor")
      ['/', 'a'] := by
    refine ⟨?_, ⟨by decide, by decide, .inr ⟨'/', .inl rfl, .inl rfl⟩⟩, ?_⟩
    · have htoken : "@" ++ "x" = "@x" := by decide
      have hbegins : Path.BeginsAtHome "~/vendor" ['/', 'v', 'e', 'n', 'd', 'o', 'r'] :=
        ⟨by decide, by simp⟩
      have hbelow : Path.IsStripped ['/', 'v', 'e', 'n', 'd', 'o', 'r']
          ['v', 'e', 'n', 'd', 'o', 'r'] := ⟨⟨['/'], by simp, rfl⟩, by simp⟩
      have hexpanded : Path.Expands (some "/home/tester") "~/vendor"
          (Path.ofString "/home/tester/vendor") := .home hbegins hbelow
      rw [← htoken]
      exact @StandsFor.file r start.disk context [_] [] _ "x" "~/vendor" _ hlayers rfl (by simp)
        hexpanded
    · intro other base' rest' hother _
      obtain ⟨target, hfind, -⟩ := hother.find?_eq hwell hcoherent rfl
      have hmem := (isSorted_aliases hcoherent rfl hsettings context).mem_iff.mpr hfind
      rw [htable] at hmem
      have hshort : ∀ entry ∈ [("@", "all"), ("@x", "/home/tester/vendor")],
          entry.1.length ≤ 2 := by
        decide
      exact hshort _ hmem
  refine ⟨hroot, .start, hsettings, rfl, hlongest, hstripped, ?_⟩
  rw [(resolveString_of_alias hroot rfl .start hsettings context rfl).1 _ _ _ _ hlongest
    hstripped]
  decide +kernel

end Resolver

end LuauWorkspace
