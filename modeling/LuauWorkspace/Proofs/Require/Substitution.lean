import LuauWorkspace.Proofs.Require.Alias

/-! # What a directory alias stands for

A require that begins with aliases names a path at or below the target of the longest of them. The
other aliases of the table do not count, and what follows the alias cannot replace the target. -/

namespace LuauWorkspace

namespace Alias

variable {aliases others : Dictionary String} {require name token target : String}
variable {rest : List Char} {home : Option String} {root : Path}

/-! ## The alias that decides -/

/-- The longest of all aliases of the table that a require begins with. -/
structure Decides (aliases : Dictionary String) (require token target : String)
    (rest : List Char) : Prop where
  found : aliases.find? token = some target
  begins : Begins token require rest
  longest : ∀ other target' rest', aliases.find? other = some target' →
    Begins other require rest' → other.length ≤ token.length

theorem longest?_eq_some_iff_decides (h : aliases.IsSorted) :
    longest? aliases require = some (token, target, rest) ↔
      Decides aliases require token target rest := by
  rw [longest?_eq_some_iff h]
  exact ⟨fun ⟨hfound, hbegins, hall⟩ => ⟨hfound, hbegins, hall⟩,
    fun hdecides => ⟨hdecides.found, hdecides.begins, hdecides.longest⟩⟩

/-- One alias at most decides, since two of one length at the beginning of a require are equal. -/
theorem Decides.unique {token' target' : String} {rest' : List Char}
    (h : Decides aliases require token target rest)
    (h' : Decides aliases require token' target' rest') :
    token = token' ∧ target = target' ∧ rest = rest' := by
  have hlength : rest.length = rest'.length := Nat.le_antisymm
    ((h.begins.length_le_iff h'.begins).mp (h.longest _ _ _ h'.found h'.begins))
    ((h'.begins.length_le_iff h.begins).mp (h'.longest _ _ _ h.found h.begins))
  obtain ⟨rfl, rfl⟩ := h.begins.eq_of_length h'.begins hlength
  exact ⟨rfl, Option.some.inj (h.found.symm.trans h'.found), rfl⟩

/-! ## Changing other aliases -/

/-- A name whose alias a require does not look at: the require does not begin with it, or begins
with a longer alias of the table as well. -/
def Hidden (aliases : Dictionary String) (require name : String) : Prop :=
  (∀ rest, ¬Begins name require rest) ∨
    ∃ token target rest, aliases.find? token = some target ∧ Begins token require rest ∧
      name.length < token.length

/-- The tables say the same of all names but one. -/
def AgreeBut (name : String) (aliases others : Dictionary String) : Prop :=
  ∀ token ≠ name, aliases.find? token = others.find? token

theorem AgreeBut.symm (h : AgreeBut name aliases others) : AgreeBut name others aliases :=
  fun token hne => (h token hne).symm

/-- A name is hidden by another name, so it does not matter what the table says of it. -/
theorem Hidden.of_agreeBut (h : Hidden aliases require name)
    (hagree : AgreeBut name aliases others) : Hidden others require name := by
  rcases h with hunfit | ⟨token, target, rest, hfound, hbegins, hlt⟩
  · exact .inl hunfit
  · refine .inr ⟨token, target, rest, ?_, hbegins, hlt⟩
    rw [← hagree token fun heq => absurd (heq ▸ hlt) (Nat.lt_irrefl _)]
    exact hfound

/-- A hidden alias does not decide. -/
theorem Decides.ne_of_hidden (h : Decides aliases require token target rest)
    (hhidden : Hidden aliases require name) : token ≠ name := by
  rintro rfl
  rcases hhidden with hunfit | ⟨other, target', rest', hfound, hbegins, hlt⟩
  · exact hunfit rest h.begins
  · exact absurd (h.longest other target' rest' hfound hbegins) (Nat.not_le_of_lt hlt)

/-- The alias that decides goes on doing so whatever becomes of a hidden one. -/
theorem Decides.of_agreeBut (h : Decides aliases require token target rest)
    (hhidden : Hidden aliases require name) (hagree : AgreeBut name aliases others) :
    Decides others require token target rest := by
  refine ⟨?_, h.begins, fun other target' rest' hfound hbegins => ?_⟩
  · rw [← hagree token (h.ne_of_hidden hhidden)]
    exact h.found
  · by_cases hname : other = name
    · subst hname
      rcases hhidden with hunfit | ⟨longer, target, rest, hlonger, hlongerBegins, hlt⟩
      · exact absurd hbegins (hunfit rest')
      · exact hlt.le.trans (h.longest longer target rest hlonger hlongerBegins)
    · rw [← hagree other hname] at hfound
      exact h.longest other target' rest' hfound hbegins

/-! ## Substitution -/

/-- The path of what is below the place that a target leads to. -/
def destination (root expanded : Path) (below : List Char) : Path :=
  Path.absoluteIn (root.join expanded) (Path.ofString (String.ofList below))

theorem resolve?_eq_some_iff (h : aliases.IsSorted) {path : Path} :
    resolve? home root aliases require = some path ↔
      ∃ token target rest below expanded, Decides aliases require token target rest ∧
        Path.IsStripped rest below ∧ Path.Expands home target expanded ∧
          path = destination root expanded below := by
  have hlongest : resolve? home root aliases require = some path ↔
      ∃ found, longest? aliases require = some found ∧
        path = Path.absoluteIn (Path.ofTarget home root found.2.1)
          (Path.ofString (String.ofList (Path.dropSeparators found.2.2))) := by
    rw [resolve?, Option.bind_eq_bind, Option.bind_eq_some_iff]
    refine exists_congr fun found => and_congr_right fun _ => ?_
    rw [Option.pure_def, Option.some.injEq, eq_comm]
  rw [hlongest]
  constructor
  · rintro ⟨⟨token, target, rest⟩, hfound, hpath⟩
    obtain ⟨expanded, hexpanded⟩ := Path.exists_expands home target
    rw [hexpanded.ofTarget_eq] at hpath
    exact ⟨token, target, rest, _, expanded, (longest?_eq_some_iff_decides h).mp hfound,
      Path.isStripped_dropSeparators rest, hexpanded, hpath⟩
  · rintro ⟨token, target, rest, below, expanded, hdecides, hstripped, hexpanded, hpath⟩
    refine ⟨(token, target, rest), (longest?_eq_some_iff_decides h).mpr hdecides, ?_⟩
    rw [hexpanded.ofTarget_eq, ← hstripped.eq_dropSeparators]
    exact hpath

/-- The answer depends on nothing but the alias that decides. -/
theorem resolve?_congr (h : aliases.IsSorted) (h' : others.IsSorted)
    (hsame : ∀ token target rest,
      Decides aliases require token target rest ↔ Decides others require token target rest) :
    resolve? home root aliases require = resolve? home root others require := by
  refine Option.ext fun path => ?_
  rw [resolve?_eq_some_iff h, resolve?_eq_some_iff h']
  simp only [hsame]

/-- What replacing the alias at the beginning of a require by its target amounts to. -/
structure IsSubstitution (home : Option String) (root : Path) (aliases : Dictionary String)
    (require : String) : Prop where
  isSome_iff : (resolve? home root aliases require).isSome = true ↔
    ∃ token target rest, aliases.find? token = some target ∧ Begins token require rest
  eq_some_iff : ∀ path, resolve? home root aliases require = some path ↔
    ∃ token target rest below expanded, Decides aliases require token target rest ∧
      Path.IsStripped rest below ∧ Path.Expands home target expanded ∧
        path = destination root expanded below
  unique : ∀ token target rest token' target' rest', Decides aliases require token target rest →
    Decides aliases require token' target' rest' →
      token = token' ∧ target = target' ∧ rest = rest'
  normal : ∀ path, resolve? home root aliases require = some path →
    path.absolute = true ∧ path.normalize = path
  unaffected : ∀ name others, Dictionary.IsSorted others → AgreeBut name aliases others →
    Hidden aliases require name →
      resolve? home root others require = resolve? home root aliases require
  inside : ∀ token target rest below expanded path, Decides aliases require token target rest →
    Path.IsStripped rest below → .up ∉ (Path.ofString (String.ofList below)).segments →
      Path.Expands home target expanded → resolve? home root aliases require = some path →
        path.startsWith (root.join expanded).normalize = true

/-- Under an absolute root, a require with an alias names what the longest alias stands for. -/
theorem isSubstitution_resolve? (home : Option String) (hroot : root.absolute = true)
    (haliases : aliases.IsSorted) (require : String) :
    IsSubstitution home root aliases require := by
  have hbase : ∀ expanded, (root.join expanded).absolute = true := Path.absolute_join hroot
  have hsome := @resolve?_eq_some_iff aliases require home root haliases
  refine ⟨⟨fun hisSome => ?_, ?_⟩, fun path => hsome, ?_, fun path hpath => ?_, ?_, ?_⟩
  · obtain ⟨path, hpath⟩ := Option.isSome_iff_exists.mp hisSome
    obtain ⟨token, target, rest, below, expanded, hdecides, -⟩ := hsome.mp hpath
    exact ⟨token, target, rest, hdecides.found, hdecides.begins⟩
  · rintro ⟨token, target, rest, hfound, hbegins⟩
    obtain ⟨token, target, rest, hlongest⟩ := exists_longest? haliases hfound hbegins
    have hdecides := (longest?_eq_some_iff_decides haliases).mp hlongest
    obtain ⟨expanded, hexpanded⟩ := Path.exists_expands home target
    rw [hsome.mpr ⟨token, target, rest, _, expanded, hdecides,
      Path.isStripped_dropSeparators rest, hexpanded, rfl⟩]
    rfl
  · intro token target rest token' target' rest' hdecides hdecides'
    exact hdecides.unique hdecides'
  · obtain ⟨token, target, rest, below, expanded, -, -, -, rfl⟩ := hsome.mp hpath
    obtain ⟨names, hnames, -⟩ :=
      Path.exists_names_of_absolute (Path.absolute_join (hbase expanded) (Path.ofString _))
    have hdestination : destination root expanded below = Path.ofNames names := hnames
    rw [hdestination]
    exact ⟨rfl, Path.normalize_ofNames names⟩
  · intro name others hothers hagree hhidden
    refine (resolve?_congr haliases hothers fun token target rest => ⟨?_, ?_⟩).symm
    · exact fun hdecides => hdecides.of_agreeBut hhidden hagree
    · exact fun hdecides =>
        hdecides.of_agreeBut (hhidden.of_agreeBut hagree) hagree.symm
  · intro token target rest below expanded path hdecides hstripped hup hexpanded hpath
    rw [hsome.mpr ⟨token, target, rest, below, expanded, hdecides, hstripped, hexpanded, rfl⟩]
      at hpath
    obtain rfl := Option.some.inj hpath
    exact Path.startsWith_absoluteIn (hbase expanded) hstripped.absolute_eq hup

/-- One alias inside another, which ends in a separator and leads below the home directory. -/
def nestedAliases : Dictionary String := [("@lib", "vendor/../net"), ("@lib/net/", "~\\/packages")]

/-- The inner alias decides, whatever the outer one stands for. Its target begins at the home
directory, or at an entry named `~` where there is none. -/
theorem isSubstitution_resolve?_nested :
    (Path.ofString "/proj").absolute = true ∧ nestedAliases.IsSorted ∧
      (∀ home, IsSubstitution home (Path.ofString "/proj") nestedAliases "@lib/net/\\/http") ∧
      resolve? (some "/home/tester") (Path.ofString "/proj") nestedAliases "@lib/net/\\/http" =
        some (Path.ofString "/home/tester/packages/http") ∧
      resolve? none (Path.ofString "/proj") nestedAliases "@lib/net/\\/http" =
        some (Path.ofString "/proj/~\\/packages/http") :=
  ⟨by decide, by decide,
    fun home => isSubstitution_resolve? home (by decide) (by decide) _, by decide, by decide⟩

end Alias

end LuauWorkspace
