import LuauWorkspace.Proofs.Text.Blank
import LuauWorkspace.Require.Argument

/-! # The notation of walks

A walk is written as its root and its steps, with white space wherever two tokens meet. `read?`
accepts exactly the texts that are written so, and what it gives is the walk that is written. -/

namespace LuauWorkspace.RequireArgument

open Text

/-! ## What is written -/

/-- A letter or an underscore, and then letters, digits and underscores. -/
inductive IsIdentifier : List Char → Prop where
  | mk {first : Char} {rest : List Char} (hfirst : isIdentStart first = true)
      (hrest : ∀ c ∈ rest, isIdentChar c = true) : IsIdentifier (first :: rest)

/-- The spelling of a string: a quote, characters other than this quote, and the quote again. -/
inductive SpellsString : String → List Char → Prop where
  | mk {quote : Char} {body : String} (hquote : quote = '"' ∨ quote = '\'')
      (hbody : quote ∉ body.toList) : SpellsString body (quote :: (body.toList ++ [quote]))

/-- The arguments of a call after the first one, up to the closing parenthesis. -/
inductive SpellsMoreArgs : List RequireArgument → List Char → Prop where
  | close {gap : List Char} (hgap : IsGap gap) : SpellsMoreArgs [] (gap ++ [')'])
  | comma {gap gap' text rest : List Char} {body : String} {args : List RequireArgument}
      (hgap : IsGap gap) (hgap' : IsGap gap') (htext : SpellsString body text)
      (hrest : SpellsMoreArgs args rest) :
      SpellsMoreArgs (.literal body :: args) (gap ++ ',' :: (gap' ++ (text ++ rest)))

/-- The arguments of a call up to the closing parenthesis. -/
inductive SpellsArgs : List RequireArgument → List Char → Prop where
  | none {gap : List Char} (hgap : IsGap gap) : SpellsArgs [] (gap ++ [')'])
  | some {gap text rest : List Char} {body : String} {args : List RequireArgument}
      (hgap : IsGap gap) (htext : SpellsString body text) (hrest : SpellsMoreArgs args rest) :
      SpellsArgs (.literal body :: args) (gap ++ (text ++ rest))

/-- One step from `base`. -/
inductive SpellsStep (base : RequireArgument) : RequireArgument → List Char → Prop where
  | field {gap : List Char} {name : String} (hgap : IsGap gap)
      (hname : IsIdentifier name.toList) :
      SpellsStep base (.field base name) ('.' :: (gap ++ name.toList))
  | key {gap gap' text : List Char} {name : String} (hgap : IsGap gap)
      (htext : SpellsString name text) (hgap' : IsGap gap') :
      SpellsStep base (.key base name) ('[' :: (gap ++ (text ++ (gap' ++ [']']))))
  | call {gap gap' text : List Char} {method : String} {args : List RequireArgument}
      (hgap : IsGap gap) (hmethod : IsIdentifier method.toList) (hgap' : IsGap gap')
      (htext : SpellsArgs args text) :
      SpellsStep base (.call base method args)
        (':' :: (gap ++ (method.toList ++ (gap' ++ '(' :: text))))

/-- Any number of steps from `base`. Nothing that may follow an identifier goes on with it, so that
an identifier is always as long as it can be. -/
inductive SpellsSteps : RequireArgument → RequireArgument → List Char → Prop where
  | nil {base : RequireArgument} : SpellsSteps base base []
  | cons {base next expr : RequireArgument} {gap text rest : List Char} (hgap : IsGap gap)
      (htext : SpellsStep base next text) (hrest : SpellsSteps next expr rest) :
      SpellsSteps base expr (gap ++ (text ++ rest))

/-- A whole walk, with white space around it. -/
inductive SpellsWalk : RequireArgument → List Char → Prop where
  | mk {before text after : List Char} {root : String} {expr : RequireArgument}
      (hbefore : IsGap before) (hroot : root = "game" ∨ root = "script")
      (htext : SpellsSteps (.global root) expr text) (hafter : IsGap after) :
      SpellsWalk expr (before ++ (root.toList ++ text ++ after))

/-! ## Characters -/

/-- Letters and digits lie between the digit zero and the letter z. -/
theorem le_of_isAlphanum {c : Char} (h : c.isAlphanum = true) :
    '0'.toNat ≤ c.toNat ∧ c.toNat ≤ 'z'.toNat := by
  have hle : ∀ {low high : Char}, low.val ≤ c.val ∧ c.val ≤ high.val → '0'.toNat ≤ low.toNat →
      high.toNat ≤ 'z'.toNat → '0'.toNat ≤ c.toNat ∧ c.toNat ≤ 'z'.toNat :=
    fun hbetween hlow hhigh => ⟨hlow.trans hbetween.1, hbetween.2.trans hhigh⟩
  rcases (Bool.or_eq_true _ _).mp h with hletter | hdigit
  · rcases (Bool.or_eq_true _ _).mp hletter with hupper | hlower
    · exact hle (of_decide_eq_true hupper) (by decide) (by decide)
    · obtain ⟨hlow, hhigh⟩ := (Bool.and_eq_true _ _).mp hlower
      exact hle ⟨of_decide_eq_true hlow, of_decide_eq_true hhigh⟩ (by decide) (by decide)
  · obtain ⟨hlow, hhigh⟩ := (Bool.and_eq_true _ _).mp hdigit
    exact hle ⟨of_decide_eq_true hlow, of_decide_eq_true hhigh⟩ (by decide) (by decide)

theorem isBlank_of_isIdentChar {c : Char} (h : isIdentChar c = true) : isBlank c = false := by
  rcases (Bool.or_eq_true _ _).mp h with hword | hunderscore
  · obtain ⟨hlow, hhigh⟩ := le_of_isAlphanum hword
    have hlow' : 48 ≤ c.toNat := hlow
    have hhigh' : c.toNat ≤ 122 := hhigh
    simp [isBlank]
    omega
  · rw [beq_iff_eq.mp hunderscore]
    decide

theorem isIdentChar_of_isIdentStart {c : Char} (h : isIdentStart c = true) :
    isIdentChar c = true := by
  simp only [isIdentStart, isIdentChar, Char.isAlphanum, Bool.or_eq_true] at h ⊢
  exact h.imp_left .inl

/-- A text that does not begin with a character of an identifier. -/
def EndsIdentifier (text : List Char) : Prop := ∀ c ∈ text.head?, isIdentChar c = false

theorem endsIdentifier_append {gap : List Char} (h : IsGap gap) {c : Char}
    (hc : isIdentChar c = false) (rest : List Char) : EndsIdentifier (gap ++ c :: rest) := by
  intro d hd
  cases gap with
  | nil =>
      obtain rfl := Option.some.inj hd
      exact hc
  | cons first gap =>
      obtain rfl := Option.some.inj hd
      by_contra hident
      have hblank := isBlank_of_isIdentChar (by simpa using hident)
      rw [h first List.mem_cons_self] at hblank
      cases hblank

/-! ## Tokens -/

theorem token?_append {gap : List Char} (hgap : IsGap gap) {c d : Char} (hd : isBlank d = false)
    (rest : List Char) : token? c (gap ++ d :: rest) = if d = c then some rest else none := by
  rw [token?, trimStart_append hgap, trimStart_cons hd]

theorem exists_of_token? {c : Char} {text rest : List Char} (h : token? c text = some rest) :
    ∃ gap, IsGap gap ∧ text = gap ++ c :: rest := by
  obtain ⟨gap, hgap, htext⟩ := exists_trimStart text
  rw [token?] at h
  split at h
  · next d tail heq =>
      rw [Option.ite_none_right_eq_some] at h
      obtain ⟨rfl, h⟩ := h
      obtain rfl := Option.some.inj h
      exact ⟨gap, hgap, heq ▸ htext⟩
  · cases h

theorem identifier?_append {gap : List Char} (hgap : IsGap gap) {name : String}
    (hname : IsIdentifier name.toList) {rest : List Char} (hrest : EndsIdentifier rest) :
    identifier? (gap ++ (name.toList ++ rest)) = some (name, rest) := by
  generalize hlist : name.toList = text at hname
  obtain ⟨hfirst, htail⟩ := hname
  next first tail =>
  have hblank := isBlank_of_isIdentChar (isIdentChar_of_isIdentStart hfirst)
  have htake : (tail ++ rest).takeWhile isIdentChar = tail := by
    rw [List.takeWhile_append_of_pos htail, List.takeWhile_eq_nil_iff.mpr, List.append_nil]
    intro hlength hc
    have hhead := hrest _ (List.head?_eq_getElem? ▸ List.getElem?_eq_getElem hlength)
    simp [hhead] at hc
  have hdrop : (tail ++ rest).dropWhile isIdentChar = rest := by
    have hall := List.takeWhile_append_dropWhile (p := isIdentChar) (l := tail ++ rest)
    rw [htake] at hall
    exact List.append_cancel_left hall
  rw [identifier?, trimStart_append hgap, List.cons_append, trimStart_cons hblank]
  simp only
  rw [if_pos hfirst, htake, hdrop, ← hlist, String.ofList_toList]

theorem exists_of_identifier? {text rest : List Char} {name : String}
    (h : identifier? text = some (name, rest)) :
    ∃ gap, IsGap gap ∧ IsIdentifier name.toList ∧ text = gap ++ (name.toList ++ rest) := by
  obtain ⟨gap, hgap, htext⟩ := exists_trimStart text
  rw [identifier?] at h
  split at h
  · next first tail heq =>
      rw [Option.ite_none_right_eq_some] at h
      obtain ⟨hfirst, h⟩ := h
      obtain ⟨rfl, rfl⟩ := Prod.mk.inj (Option.some.inj h)
      rw [heq] at htext
      refine ⟨gap, hgap, ?_, ?_⟩
      · rw [String.toList_ofList]
        exact ⟨hfirst, fun c => List.mem_takeWhile_imp⟩
      · rw [String.toList_ofList, List.cons_append, List.takeWhile_append_dropWhile]
        exact htext
  · cases h

theorem closeQuote?_append {quote : Char} {body : List Char} (h : quote ∉ body)
    (rest : List Char) : closeQuote? quote (body ++ quote :: rest) = some (body, rest) := by
  induction body with
  | nil => rw [List.nil_append, closeQuote?, if_pos rfl]
  | cons c body ih =>
      have hc : c ≠ quote := fun heq => h (heq ▸ List.mem_cons_self)
      rw [List.cons_append, closeQuote?, if_neg hc, ih (List.not_mem_of_not_mem_cons h)]
      rfl

theorem closeQuote?_eq_some {quote : Char} {text body rest : List Char}
    (h : closeQuote? quote text = some (body, rest)) :
    text = body ++ quote :: rest ∧ quote ∉ body := by
  induction text generalizing body with
  | nil => cases h
  | cons c text ih =>
      rw [closeQuote?] at h
      split at h
      · next hc =>
          obtain ⟨rfl, rfl⟩ := Prod.mk.inj (Option.some.inj h)
          exact ⟨by rw [hc]; rfl, List.not_mem_nil⟩
      · next hc =>
          obtain ⟨⟨front, after⟩, hfound, h⟩ := Option.map_eq_some_iff.mp h
          obtain ⟨rfl, rfl⟩ := Prod.mk.inj h
          obtain ⟨rfl, hfront⟩ := ih hfound
          exact ⟨rfl, List.not_mem_cons_of_ne_of_not_mem (Ne.symm hc) hfront⟩

theorem isBlank_of_quote {quote : Char} (h : quote = '"' ∨ quote = '\'') :
    isBlank quote = false := by
  rcases h with rfl | rfl <;> decide

theorem quoted?_append {gap : List Char} (hgap : IsGap gap) {body : String} {text : List Char}
    (htext : SpellsString body text) (rest : List Char) :
    quoted? (gap ++ (text ++ rest)) = some (body, rest) := by
  obtain ⟨hquote, hbody⟩ := htext
  next quote =>
  have hclose := closeQuote?_append hbody rest
  rw [quoted?, trimStart_append hgap, List.cons_append, trimStart_cons (isBlank_of_quote hquote),
    List.append_assoc]
  simp only [List.singleton_append]
  rw [if_pos hquote, hclose, Option.map_some, String.ofList_toList]

theorem exists_of_quoted? {text rest : List Char} {body : String}
    (h : quoted? text = some (body, rest)) :
    ∃ gap spelled, IsGap gap ∧ SpellsString body spelled ∧ text = gap ++ (spelled ++ rest) := by
  obtain ⟨gap, hgap, htext⟩ := exists_trimStart text
  rw [quoted?] at h
  split at h
  · next quote tail heq =>
      rw [Option.ite_none_right_eq_some] at h
      obtain ⟨hquote, h⟩ := h
      obtain ⟨⟨front, after⟩, hfound, h⟩ := Option.map_eq_some_iff.mp h
      obtain ⟨rfl, rfl⟩ := Prod.mk.inj h
      obtain ⟨rfl, hfront⟩ := closeQuote?_eq_some hfound
      have hspelled : SpellsString (String.ofList front) _ :=
        .mk hquote (by rwa [String.toList_ofList])
      refine ⟨gap, _, hgap, hspelled, ?_⟩
      rw [heq] at htext
      simpa using htext
  · cases h

/-- No string begins with the closing parenthesis. -/
theorem token?_spellsString {gap : List Char} (hgap : IsGap gap) {body : String}
    {text : List Char} (htext : SpellsString body text) (rest : List Char) :
    token? ')' (gap ++ (text ++ rest)) = none := by
  obtain ⟨hquote, -⟩ := htext
  next quote =>
  have hne : quote ≠ ')' := by
    rcases hquote with rfl | rfl <;> decide
  rw [List.cons_append, token?_append hgap (isBlank_of_quote hquote), if_neg hne]

/-! ## Arguments -/

theorem moreArgs?_of_comma {text afterComma rest : List Char} {body : String}
    (hclose : token? ')' text = none) (hcomma : token? ',' text = some afterComma)
    (hquoted : quoted? afterComma = some (body, rest)) :
    moreArgs? text = (moreArgs? rest).map fun (args, after) => (.literal body :: args, after) := by
  rw [moreArgs?.eq_def]
  simp only [hclose]
  split
  · next hnone => simp [hcomma] at hnone
  · next found hfound =>
      obtain rfl := Option.some.inj (hcomma.symm.trans hfound)
      split
      · next hnone => simp [hquoted] at hnone
      · next found hfound =>
          obtain ⟨rfl, rfl⟩ := Prod.mk.inj (Option.some.inj (hquoted.symm.trans hfound))
          rfl

theorem moreArgs?_append {args : List RequireArgument} {text : List Char}
    (h : SpellsMoreArgs args text) (rest : List Char) :
    moreArgs? (text ++ rest) = some (args, rest) := by
  induction h with
  | close hgap =>
      rw [moreArgs?, List.append_assoc, List.singleton_append,
        token?_append hgap (by decide), if_pos rfl]
  | @comma gap gap' text tail body args hgap hgap' htext hrest ih =>
      have htoken : ∀ c, token? c (gap ++ ',' :: (gap' ++ (text ++ (tail ++ rest)))) =
          if ',' = c then some (gap' ++ (text ++ (tail ++ rest))) else none :=
        fun c => token?_append hgap (by decide) _
      simp only [List.append_assoc, List.cons_append]
      rw [moreArgs?_of_comma (htoken ')') (htoken ',') (quoted?_append hgap' htext _), ih]
      rfl

theorem exists_of_moreArgs? {text rest : List Char} {args : List RequireArgument}
    (h : moreArgs? text = some (args, rest)) :
    ∃ spelled, SpellsMoreArgs args spelled ∧ text = spelled ++ rest := by
  fun_induction moreArgs? text generalizing args with
  | case1 text after heq =>
      obtain ⟨rfl, rfl⟩ := Prod.mk.inj (Option.some.inj h)
      obtain ⟨gap, hgap, rfl⟩ := exists_of_token? heq
      exact ⟨_, .close hgap, by simp⟩
  | case2 => cases h
  | case3 => cases h
  | case4 text _ afterComma hcomma body tail hquoted ih =>
      obtain ⟨⟨more, after⟩, hmore, h⟩ := Option.map_eq_some_iff.mp h
      obtain ⟨rfl, rfl⟩ := Prod.mk.inj h
      obtain ⟨spelled, hspelled, rfl⟩ := ih hmore
      obtain ⟨gap', string, hgap', hstring, rfl⟩ := exists_of_quoted? hquoted
      obtain ⟨gap, hgap, rfl⟩ := exists_of_token? hcomma
      exact ⟨_, .comma hgap hgap' hstring hspelled, by simp⟩

theorem args?_append {args : List RequireArgument} {text : List Char}
    (h : SpellsArgs args text) (rest : List Char) :
    args? (text ++ rest) = some (args, rest) := by
  cases h with
  | none hgap =>
      rw [args?, List.append_assoc, List.singleton_append,
        token?_append hgap (by decide), if_pos rfl]
  | some hgap htext hrest =>
      rw [args?, List.append_assoc, List.append_assoc, token?_spellsString hgap htext]
      simp only
      rw [quoted?_append hgap htext, Option.bind_eq_bind, Option.bind_some]
      simp only
      rw [moreArgs?_append hrest]
      rfl

theorem exists_of_args? {text rest : List Char} {args : List RequireArgument}
    (h : args? text = some (args, rest)) :
    ∃ spelled, SpellsArgs args spelled ∧ text = spelled ++ rest := by
  rw [args?] at h
  split at h
  · next after heq =>
      obtain ⟨rfl, rfl⟩ := Prod.mk.inj (Option.some.inj h)
      obtain ⟨gap, hgap, rfl⟩ := exists_of_token? heq
      exact ⟨_, .none hgap, by simp⟩
  · obtain ⟨⟨body, tail⟩, hquoted, h⟩ := Option.bind_eq_some_iff.mp h
    obtain ⟨⟨more, after⟩, hmore, h⟩ := Option.bind_eq_some_iff.mp h
    obtain ⟨rfl, rfl⟩ := Prod.mk.inj (Option.some.inj h)
    obtain ⟨spelled, hspelled, rfl⟩ := exists_of_moreArgs? hmore
    obtain ⟨gap, string, hgap, hstring, rfl⟩ := exists_of_quoted? hquoted
    exact ⟨_, .some hgap hstring hspelled, by simp⟩

/-! ## Steps -/

theorem step?_append {base next : RequireArgument} {gap text : List Char} (hgap : IsGap gap)
    (htext : SpellsStep base next text) {rest : List Char} (hrest : EndsIdentifier rest) :
    step? base (gap ++ (text ++ rest)) = some (next, rest) := by
  cases htext with
  | field hgap' hname =>
      rw [step?, List.cons_append, token?_append hgap (by decide), if_pos rfl]
      simp only
      rw [List.append_assoc, identifier?_append hgap' hname hrest, Option.map_some]
  | key hgap' htext hend =>
      rw [step?, List.cons_append, token?_append hgap (by decide), if_neg (by decide),
        token?_append hgap (by decide), if_pos rfl]
      simp only [List.append_assoc]
      rw [quoted?_append hgap' htext, Option.bind_eq_bind, Option.bind_some]
      simp only [List.singleton_append]
      rw [token?_append hend (by decide), if_pos rfl]
      rfl
  | call hgap' hmethod hopen htext =>
      have hparen : ∀ tail, EndsIdentifier (_ ++ '(' :: tail) :=
        endsIdentifier_append hopen (by decide)
      rw [step?, List.cons_append, token?_append hgap (by decide), if_neg (by decide),
        token?_append hgap (by decide), if_neg (by decide), token?_append hgap (by decide),
        if_pos rfl]
      simp only [List.append_assoc, List.cons_append, Option.bind_eq_bind, Option.bind_some]
      rw [identifier?_append hgap' hmethod (hparen _), Option.bind_some]
      simp only
      rw [token?_append hopen (by decide), if_pos rfl, Option.bind_some, args?_append htext]
      rfl

theorem exists_of_step? {base next : RequireArgument} {text rest : List Char}
    (h : step? base text = some (next, rest)) :
    ∃ gap spelled, IsGap gap ∧ SpellsStep base next spelled ∧ text = gap ++ (spelled ++ rest) := by
  rw [step?] at h
  split at h
  · next after hdot =>
      obtain ⟨⟨name, tail⟩, hname, h⟩ := Option.map_eq_some_iff.mp h
      obtain ⟨rfl, rfl⟩ := Prod.mk.inj h
      obtain ⟨gap', hgap', hident, rfl⟩ := exists_of_identifier? hname
      obtain ⟨gap, hgap, rfl⟩ := exists_of_token? hdot
      exact ⟨gap, _, hgap, .field hgap' hident, by simp⟩
  · split at h
    · next after hopen =>
        obtain ⟨⟨name, tail⟩, hname, h⟩ := Option.bind_eq_some_iff.mp h
        obtain ⟨after', hclose, h⟩ := Option.bind_eq_some_iff.mp h
        obtain ⟨rfl, rfl⟩ := Prod.mk.inj (Option.some.inj h)
        obtain ⟨end', hend, rfl⟩ := exists_of_token? hclose
        obtain ⟨gap', string, hgap', hstring, rfl⟩ := exists_of_quoted? hname
        obtain ⟨gap, hgap, rfl⟩ := exists_of_token? hopen
        exact ⟨gap, _, hgap, .key hgap' hstring hend, by simp⟩
    · obtain ⟨after, hcolon, h⟩ := Option.bind_eq_some_iff.mp h
      obtain ⟨⟨method, tail⟩, hmethod, h⟩ := Option.bind_eq_some_iff.mp h
      obtain ⟨inside, hparen, h⟩ := Option.bind_eq_some_iff.mp h
      obtain ⟨⟨args, after'⟩, hargs, h⟩ := Option.bind_eq_some_iff.mp h
      obtain ⟨rfl, rfl⟩ := Prod.mk.inj (Option.some.inj h)
      obtain ⟨spelled, hspelled, rfl⟩ := exists_of_args? hargs
      obtain ⟨open', hopen, rfl⟩ := exists_of_token? hparen
      obtain ⟨gap', hgap', hident, rfl⟩ := exists_of_identifier? hmethod
      obtain ⟨gap, hgap, rfl⟩ := exists_of_token? hcolon
      exact ⟨gap, _, hgap, .call hgap' hident hopen hspelled, by simp⟩

theorem endsIdentifier_of_spellsSteps {base expr : RequireArgument} {text : List Char}
    (h : SpellsSteps base expr text) : EndsIdentifier text := by
  cases h with
  | nil =>
      intro c hc
      cases hc
  | cons hgap htext hrest =>
      cases htext with
      | field => exact endsIdentifier_append hgap (by decide) _
      | key => exact endsIdentifier_append hgap (by decide) _
      | call => exact endsIdentifier_append hgap (by decide) _

theorem steps?_of_step? {base next : RequireArgument} {text rest : List Char}
    (h : step? base text = some (next, rest)) : steps? base text = steps? next rest := by
  have hlength := length_step? h
  rw [steps?, if_neg (by intro hempty; simp [List.isEmpty_iff.mp hempty] at hlength)]
  split
  · next hnone => simp [h] at hnone
  · next found hfound =>
      obtain ⟨rfl, rfl⟩ := Prod.mk.inj (Option.some.inj (h.symm.trans hfound))
      rfl

/-- The steps that are read are those that are written. -/
theorem steps?_eq_some_iff {base expr : RequireArgument} {text : List Char} :
    steps? base text = some expr ↔ SpellsSteps base expr text := by
  constructor
  · intro h
    fun_induction steps? base text with
    | case1 base text hempty =>
        obtain rfl := Option.some.inj h
        obtain rfl := List.isEmpty_iff.mp hempty
        exact .nil
    | case2 => cases h
    | case3 base text hne next rest hstep ih =>
        obtain ⟨gap, spelled, hgap, hspelled, rfl⟩ := exists_of_step? hstep
        exact .cons hgap hspelled (ih h)
  · intro h
    induction h with
    | nil =>
        rw [steps?]
        rfl
    | cons hgap htext hrest ih =>
        rw [steps?_of_step? (step?_append hgap htext (endsIdentifier_of_spellsSteps hrest)), ih]

/-! ## Ends of walks -/

theorem IsIdentifier.endsSolid {text : List Char} (h : IsIdentifier text) : EndsSolid text := by
  obtain ⟨hfirst, hrest⟩ := h
  next first rest =>
  have hall : ∀ c ∈ first :: rest, isIdentChar c = true :=
    List.forall_mem_cons.mpr ⟨isIdentChar_of_isIdentStart hfirst, hrest⟩
  have hne : first :: rest ≠ [] := List.cons_ne_nil first rest
  exact ⟨_, _, (List.dropLast_concat_getLast hne).symm,
    isBlank_of_isIdentChar (hall _ (List.getLast_mem hne))⟩

theorem SpellsMoreArgs.endsSolid {args : List RequireArgument} {text : List Char}
    (h : SpellsMoreArgs args text) : EndsSolid text := by
  induction h with
  | @close gap hgap => exact ⟨gap, ')', rfl, by decide⟩
  | comma hgap hgap' htext hrest ih =>
      exact (((ih.append _).append _).append [',']).append _

theorem SpellsArgs.endsSolid {args : List RequireArgument} {text : List Char}
    (h : SpellsArgs args text) : EndsSolid text := by
  cases h with
  | @none gap hgap => exact ⟨gap, ')', rfl, by decide⟩
  | some hgap htext hrest => exact (hrest.endsSolid.append _).append _

theorem SpellsStep.endsSolid {base next : RequireArgument} {text : List Char}
    (h : SpellsStep base next text) : EndsSolid text := by
  cases h with
  | field hgap hname => exact (hname.endsSolid.append _).append ['.']
  | key hgap htext hgap' =>
      have hbracket : EndsSolid [']'] := ⟨[], ']', rfl, by decide⟩
      exact (((hbracket.append _).append _).append _).append ['[']
  | call hgap hmethod hgap' htext =>
      exact ((((htext.endsSolid.append ['(']).append _).append _).append _).append [':']

theorem SpellsSteps.eq_nil_or_endsSolid {base expr : RequireArgument} {text : List Char}
    (h : SpellsSteps base expr text) : text = [] ∨ EndsSolid text := by
  induction h with
  | nil => exact .inl rfl
  | cons hgap htext hrest ih =>
      rcases ih with rfl | ih
      · rw [List.append_nil]
        exact .inr (htext.endsSolid.append _)
      · exact .inr ((ih.append _).append _)

/-! ## Whole walks -/

theorem spellsWalk_of_read? {text : String} {expr : RequireArgument}
    (h : read? text = some expr) : SpellsWalk expr text.toList := by
  obtain ⟨⟨root, rest⟩, hroot, h⟩ := Option.bind_eq_some_iff.mp h
  rw [Option.ite_none_right_eq_some] at h
  obtain ⟨hmem, hsteps⟩ := h
  obtain ⟨before, after, hbefore, hafter, htext⟩ := exists_trim text.toList
  obtain ⟨gap, hgap, -, htrim⟩ := exists_of_identifier? hroot
  have hspelled : text.toList = (before ++ gap) ++ (root.toList ++ rest ++ after) := by
    rw [htext, htrim]
    simp
  rw [hspelled]
  exact .mk (hbefore.append hgap) (by simpa [roots] using hmem) (steps?_eq_some_iff.mp hsteps)
    hafter

theorem read?_of_spellsWalk {text : String} {expr : RequireArgument}
    (h : SpellsWalk expr text.toList) : read? text = some expr := by
  generalize hlist : text.toList = spelled at h
  obtain ⟨hbefore, hroot, hsteps, hafter⟩ := h
  next before steps after root =>
  have hname : IsIdentifier root.toList ∧ ∃ first rest, root.toList = first :: rest ∧
      isBlank first = false := by
    rcases hroot with rfl | rfl
    · exact ⟨.mk rfl (List.all_eq_true.mp rfl), 'g', "ame".toList, rfl, by decide⟩
    · exact ⟨.mk rfl (List.all_eq_true.mp rfl), 's', "cript".toList, rfl, by decide⟩
  obtain ⟨hident, first, rest, hfirst, hsolid⟩ := hname
  have hends : EndsSolid (root.toList ++ steps) := by
    rcases hsteps.eq_nil_or_endsSolid with rfl | hends
    · rw [List.append_nil]
      exact hident.endsSolid
    · exact hends.append _
  have htrim : trim text.toList = root.toList ++ steps := by
    rw [hlist]
    rw [hfirst, List.cons_append] at hends ⊢
    exact trim_append hbefore hafter hsolid hends
  have hread := identifier?_append isGap_nil hident (endsIdentifier_of_spellsSteps hsteps)
  rw [List.nil_append] at hread
  rw [read?, htrim, hread, Option.bind_eq_bind, Option.bind_some]
  simp only
  rw [if_pos (by simpa [roots] using hroot), steps?_eq_some_iff.mpr hsteps]

/-! ## Writing walks -/

/-- A string that can be put between quotes of some kind. -/
def IsQuotable (body : String) : Prop := '"' ∉ body.toList ∨ '\'' ∉ body.toList

/-- The walks that can be written: from a root by steps whose names are identifiers and whose
strings can be quoted. -/
inductive IsWritable : RequireArgument → Prop where
  | root {name : String} (h : name = "game" ∨ name = "script") : IsWritable (.global name)
  | field {base : RequireArgument} {name : String} (hbase : IsWritable base)
      (hname : IsIdentifier name.toList) : IsWritable (.field base name)
  | key {base : RequireArgument} {name : String} (hbase : IsWritable base)
      (hname : IsQuotable name) : IsWritable (.key base name)
  | call {base : RequireArgument} {method : String} {args : List RequireArgument}
      (hbase : IsWritable base) (hmethod : IsIdentifier method.toList)
      (hargs : ∀ arg ∈ args, ∃ body, arg = .literal body ∧ IsQuotable body) :
      IsWritable (.call base method args)

/-- A string between double quotes, or between single ones when it holds a double one. -/
def stringText (body : String) : List Char :=
  let quote := if '"' ∈ body.toList then '\'' else '"'
  quote :: (body.toList ++ [quote])

/-- An argument of a call as a string. -/
def argText : RequireArgument → List Char
  | .literal body => stringText body
  | _ => []

/-- The arguments of a call with commas between them and the closing parenthesis. -/
def argsText : List RequireArgument → List Char
  | [] => [')']
  | first :: more => argText first ++ (more.flatMap fun arg => [',', ' '] ++ argText arg) ++ [')']

/-- A walk written without white space but after commas. -/
def spelling : RequireArgument → List Char
  | .global name => name.toList
  | .field base name => spelling base ++ '.' :: name.toList
  | .key base name => spelling base ++ '[' :: (stringText name ++ [']'])
  | .call base method args => spelling base ++ ':' :: (method.toList ++ '(' :: argsText args)
  | .literal _ => []
  | .dynamic => []

theorem spellsString_stringText {body : String} (h : IsQuotable body) :
    SpellsString body (stringText body) := by
  by_cases hdouble : '"' ∈ body.toList
  · rw [stringText, if_pos hdouble]
    exact .mk (.inr rfl) (h.resolve_left (not_not_intro hdouble))
  · rw [stringText, if_neg hdouble]
    exact .mk (.inl rfl) hdouble

theorem SpellsString.isQuotable {body : String} {text : List Char} (h : SpellsString body text) :
    IsQuotable body := by
  obtain ⟨rfl | rfl, hbody⟩ := h
  · exact .inl hbody
  · exact .inr hbody

theorem spellsMoreArgs_argText {args : List RequireArgument}
    (h : ∀ arg ∈ args, ∃ body, arg = .literal body ∧ IsQuotable body) :
    SpellsMoreArgs args ((args.flatMap fun arg => [',', ' '] ++ argText arg) ++ [')']) := by
  induction args with
  | nil => exact .close isGap_nil
  | cons arg args ih =>
      obtain ⟨body, rfl, hbody⟩ := h arg List.mem_cons_self
      have hspace : IsGap [' '] := by simp [IsGap, isBlank]
      have hmore := ih fun other hother => h other (List.mem_cons_of_mem _ hother)
      have hcomma := SpellsMoreArgs.comma isGap_nil hspace (spellsString_stringText hbody) hmore
      simpa [argText] using hcomma

theorem spellsArgs_argsText {args : List RequireArgument}
    (h : ∀ arg ∈ args, ∃ body, arg = .literal body ∧ IsQuotable body) :
    SpellsArgs args (argsText args) := by
  cases args with
  | nil => exact .none isGap_nil
  | cons arg args =>
      obtain ⟨body, rfl, hbody⟩ := h arg List.mem_cons_self
      have hmore := spellsMoreArgs_argText fun other hother =>
        h other (List.mem_cons_of_mem _ hother)
      have hfirst := SpellsArgs.some isGap_nil (spellsString_stringText hbody) hmore
      simpa [argsText, argText] using hfirst

theorem SpellsSteps.concat {base next expr : RequireArgument} {text last : List Char}
    (h : SpellsSteps base next text) (hlast : SpellsStep next expr last) :
    SpellsSteps base expr (text ++ last) := by
  induction h with
  | nil => simpa using SpellsSteps.cons isGap_nil hlast .nil
  | cons hgap htext hrest ih => simpa using SpellsSteps.cons hgap htext (ih hlast)

/-- A walk that can be written is spelled as its root with steps. -/
theorem IsWritable.exists_spellsSteps {expr : RequireArgument} (h : expr.IsWritable) :
    ∃ root text, (root = "game" ∨ root = "script") ∧ SpellsSteps (.global root) expr text ∧
      expr.spelling = root.toList ++ text := by
  induction h with
  | @root name hname => exact ⟨name, [], hname, .nil, (List.append_nil _).symm⟩
  | field hbase hname ih =>
      obtain ⟨root, text, hroot, hsteps, hspelling⟩ := ih
      refine ⟨root, _, hroot, hsteps.concat (.field isGap_nil hname), ?_⟩
      rw [spelling, hspelling, List.append_assoc]
      rfl
  | key hbase hname ih =>
      obtain ⟨root, text, hroot, hsteps, hspelling⟩ := ih
      refine ⟨root, _, hroot,
        hsteps.concat (.key isGap_nil (spellsString_stringText hname) isGap_nil), ?_⟩
      rw [spelling, hspelling, List.append_assoc]
      rfl
  | call hbase hmethod hargs ih =>
      obtain ⟨root, text, hroot, hsteps, hspelling⟩ := ih
      refine ⟨root, _, hroot,
        hsteps.concat (.call isGap_nil hmethod isGap_nil (spellsArgs_argsText hargs)), ?_⟩
      rw [spelling, hspelling, List.append_assoc]
      rfl

theorem SpellsMoreArgs.exists_literal {args : List RequireArgument} {text : List Char}
    (h : SpellsMoreArgs args text) :
    ∀ arg ∈ args, ∃ body, arg = .literal body ∧ IsQuotable body := by
  induction h with
  | close => exact fun arg harg => nomatch harg
  | comma _ _ htext _ ih => exact List.forall_mem_cons.mpr ⟨⟨_, rfl, htext.isQuotable⟩, ih⟩

theorem SpellsArgs.exists_literal {args : List RequireArgument} {text : List Char}
    (h : SpellsArgs args text) :
    ∀ arg ∈ args, ∃ body, arg = .literal body ∧ IsQuotable body := by
  cases h with
  | none => exact fun arg harg => nomatch harg
  | some _ htext hrest =>
      exact List.forall_mem_cons.mpr ⟨⟨_, rfl, htext.isQuotable⟩, hrest.exists_literal⟩

theorem SpellsSteps.isWritable {base expr : RequireArgument} {text : List Char}
    (h : SpellsSteps base expr text) (hbase : base.IsWritable) : expr.IsWritable := by
  induction h with
  | nil => exact hbase
  | cons _ htext _ ih =>
      apply ih
      cases htext with
      | field _ hname => exact .field hbase hname
      | key _ hname _ => exact .key hbase hname.isQuotable
      | call _ hmethod _ hargs => exact .call hbase hmethod hargs.exists_literal

/-- A text is read as a walk exactly when it spells it. The walks that any text spells are those
that can be written, and every one of them is read back from its own spelling. -/
theorem read?_eq_some_iff (expr : RequireArgument) :
    (∀ text : String, read? text = some expr ↔ SpellsWalk expr text.toList) ∧
      ((∃ text, SpellsWalk expr text) ↔ expr.IsWritable) ∧
      (read? (String.ofList expr.spelling) = some expr ↔ expr.IsWritable) := by
  have hread : ∀ text : String, read? text = some expr ↔ SpellsWalk expr text.toList :=
    fun text => ⟨spellsWalk_of_read?, read?_of_spellsWalk⟩
  have hwritable : ∀ text, SpellsWalk expr text → expr.IsWritable := by
    rintro text ⟨_, hroot, hsteps, _⟩
    exact hsteps.isWritable (.root hroot)
  have hspelling : expr.IsWritable → SpellsWalk expr expr.spelling := by
    intro h
    obtain ⟨root, text, hroot, hsteps, hspelling⟩ := h.exists_spellsSteps
    rw [hspelling]
    simpa using SpellsWalk.mk isGap_nil hroot hsteps isGap_nil
  refine ⟨hread, ⟨fun ⟨text, htext⟩ => hwritable text htext, fun h => ⟨_, hspelling h⟩⟩, ?_⟩
  rw [hread, String.toList_ofList]
  exact ⟨hwritable _, hspelling⟩

example : String.ofList ((RequireArgument.global "game").call "GetService" [.literal "Lib"]
    |>.field "Shared" |>.key "a\"b").spelling = "game:GetService(\"Lib\").Shared['a\"b']" := by
  decide

end LuauWorkspace.RequireArgument
