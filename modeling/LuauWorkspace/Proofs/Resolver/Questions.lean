import LuauWorkspace.Proofs.Resolver.Session

/-! # What questions change

A question changes nothing but what is remembered, and what a string leads to depends on the
remembered configurations through the aliases only. -/

namespace LuauWorkspace.Resolver

theorem config_keeps (r : Resolver) (disk : FileSystem) (name : String) :
    ∃ configs, (r.config disk name).2 = { r with configs } := by
  rw [config]
  split
  · exact ⟨_, rfl⟩
  · exact ⟨r.configs, rfl⟩

theorem aliases_keeps (r : Resolver) (disk : FileSystem) (context : Option String) :
    ∃ configs, (r.aliases disk context).2 = { r with configs } := by
  cases context with
  | none => exact ⟨r.configs, rfl⟩
  | some name => exact r.config_keeps disk name

/-! ## Strings -/

/-- Where a string leads, by the aliases of its context. -/
theorem target_fst (r : Resolver) (disk : FileSystem) (context : Option String)
    (require : String) :
    (r.target disk context require).1 =
      match r.settings.require.fileAliases.find? require with
      | some target => .path (Path.ofTarget r.home r.root target).normalize
      | none =>
        match Alias.resolve? r.home r.root (r.aliases disk context).1 require with
        | some path => .path path
        | none => r.plainTarget disk context require := by
  obtain ⟨configs, hkeeps⟩ := r.aliases_keeps disk context
  rw [target]
  cases r.settings.require.fileAliases.find? require with
  | some target => rfl
  | none =>
      simp only [hkeeps]
      cases Alias.resolve? r.home r.root (r.aliases disk context).1 require with
      | some path => rfl
      | none => rfl

/-- The resolver after it has found where a string leads. -/
theorem target_snd (r : Resolver) (disk : FileSystem) (context : Option String)
    (require : String) :
    (r.target disk context require).2 =
      match r.settings.require.fileAliases.find? require with
      | some _ => r
      | none => (r.aliases disk context).2 := by
  obtain ⟨configs, hkeeps⟩ := r.aliases_keeps disk context
  rw [target]
  cases r.settings.require.fileAliases.find? require with
  | some target => rfl
  | none =>
      simp only [hkeeps]
      cases Alias.resolve? r.home r.root (r.aliases disk context).1 require with
      | some path => rfl
      | none => rfl

theorem target_keeps (r : Resolver) (disk : FileSystem) (context : Option String)
    (require : String) : ∃ configs, (r.target disk context require).2 = { r with configs } := by
  rw [target_snd]
  cases r.settings.require.fileAliases.find? require with
  | some target => exact ⟨r.configs, rfl⟩
  | none => exact r.aliases_keeps disk context

theorem resolveString_fst (r : Resolver) (disk : FileSystem) (context : Option String)
    (require : String) :
    (r.resolveString disk context require).1 =
      r.moduleOf? disk (r.target disk context require).1 := by
  obtain ⟨configs, hkeeps⟩ := r.target_keeps disk context require
  simp only [resolveString, hkeeps]
  rfl

/-! ## All questions -/

theorem resolve_keeps (r : Resolver) (disk : FileSystem) (context : Option String)
    (expr : RequireArgument) : ∃ configs, (r.resolve disk context expr).2 = { r with configs } := by
  cases expr with
  | literal require => exact r.target_keeps disk context require
  | _ => exact ⟨r.configs, rfl⟩

theorem ask_keeps (r : Resolver) (disk : FileSystem) (query : Query) :
    ∃ configs, (query.ask r disk).2 = { r with configs } := by
  cases query with
  | config name => exact r.config_keeps disk name
  | directoryConfig directory => exact ⟨_, rfl⟩
  | resolve context require => exact r.resolve_keeps disk context require
  | _ => exact ⟨r.configs, rfl⟩

end LuauWorkspace.Resolver
