import LuauWorkspace.Text.Blank

/-! # The argument of a require

A require names its module by a string or by a walk through the instances of the game. `read`
accepts a walk in the notation of the language: it starts at `game` or `script`, and every step is a
field, a key in brackets or a method call on strings. -/

namespace LuauWorkspace

/-- What a require is given, as far as it can be followed. -/
inductive RequireArgument where
  /-- A string in quotes. -/
  | literal (text : String)
  /-- A global name. -/
  | global (name : String)
  /-- The field `base.name`. -/
  | field (base : RequireArgument) (name : String)
  /-- The key `base["name"]`. -/
  | key (base : RequireArgument) (name : String)
  /-- The method call `base:method(args)`. -/
  | call (base : RequireArgument) (method : String) (args : List RequireArgument)
  /-- Anything else. -/
  | dynamic
deriving Inhabited

namespace RequireArgument

/-! ## Tokens -/

/-- What follows a given character, white space before it aside. -/
def token? (c : Char) (text : List Char) : Option (List Char) :=
  match Text.trimStart text with
  | d :: rest => if d = c then some rest else none
  | [] => none

/-- Whether a character may open an identifier. -/
def isIdentStart (c : Char) : Bool := c.isAlpha || c == '_'

/-- Whether a character may stand in an identifier. -/
def isIdentChar (c : Char) : Bool := c.isAlphanum || c == '_'

/-- The longest identifier at the beginning of a text, white space aside, and what follows it. -/
def identifier? (text : List Char) : Option (String × List Char) :=
  match Text.trimStart text with
  | c :: rest =>
    if isIdentStart c then
      some (String.ofList (c :: rest.takeWhile isIdentChar), rest.dropWhile isIdentChar)
    else none
  | [] => none

/-- A text up to the next quote of the given kind and what follows that quote. -/
def closeQuote? (quote : Char) : List Char → Option (List Char × List Char)
  | [] => none
  | c :: rest =>
    if c = quote then some ([], rest)
    else (closeQuote? quote rest).map fun (body, after) => (c :: body, after)

/-- The string at the beginning of a text, white space aside, and what follows it. A string has no
escapes. -/
def quoted? (text : List Char) : Option (String × List Char) :=
  match Text.trimStart text with
  | quote :: rest =>
    if quote = '"' ∨ quote = '\'' then
      (closeQuote? quote rest).map fun (body, after) => (String.ofList body, after)
    else none
  | [] => none

/-! ## Lengths -/

theorem length_token? {c : Char} {text rest : List Char} (h : token? c text = some rest) :
    rest.length < text.length := by
  have hle := Text.length_trimStart_le text
  simp only [token?] at h
  split at h
  · next d tail heq =>
    rw [heq] at hle
    simp only [Option.ite_none_right_eq_some, Option.some.injEq] at h
    obtain ⟨_, rfl⟩ := h
    simp only [List.length_cons] at hle
    omega
  · simp at h

theorem length_identifier? {text rest : List Char} {name : String}
    (h : identifier? text = some (name, rest)) : rest.length < text.length := by
  have hle := Text.length_trimStart_le text
  simp only [identifier?] at h
  split at h
  · next d tail heq =>
    rw [heq] at hle
    simp only [Option.ite_none_right_eq_some, Option.some.injEq, Prod.mk.injEq] at h
    obtain ⟨_, _, rfl⟩ := h
    have hd := (List.dropWhile_suffix isIdentChar (l := tail)).length_le
    simp only [List.length_cons] at hle
    omega
  · simp at h

theorem length_closeQuote? {quote : Char} {text body rest : List Char}
    (h : closeQuote? quote text = some (body, rest)) : rest.length < text.length := by
  induction text generalizing body with
  | nil => simp [closeQuote?] at h
  | cons c tail ih =>
    simp only [closeQuote?] at h
    split at h
    · simp only [Option.some.injEq, Prod.mk.injEq] at h
      obtain ⟨_, rfl⟩ := h
      simp
    · simp only [Option.map_eq_some_iff, Prod.mk.injEq, Prod.exists] at h
      obtain ⟨b, a, hba, _, rfl⟩ := h
      have := ih hba
      simp only [List.length_cons]
      omega

theorem length_quoted? {text rest : List Char} {body : String}
    (h : quoted? text = some (body, rest)) : rest.length < text.length := by
  have hle := Text.length_trimStart_le text
  simp only [quoted?] at h
  split at h
  · next d tail heq =>
    rw [heq] at hle
    simp only [Option.ite_none_right_eq_some, Option.map_eq_some_iff, Prod.mk.injEq,
      Prod.exists] at h
    obtain ⟨_, b, a, hba, _, rfl⟩ := h
    have := length_closeQuote? hba
    simp only [List.length_cons] at hle
    omega
  · simp at h

/-! ## Walks -/

/-- The arguments after the first one and what follows their closing parenthesis. -/
def moreArgs? (text : List Char) : Option (List RequireArgument × List Char) :=
  match token? ')' text with
  | some rest => some ([], rest)
  | none =>
    match _h₁ : token? ',' text with
    | none => none
    | some afterComma =>
      match _h₂ : quoted? afterComma with
      | none => none
      | some (body, rest) =>
        (moreArgs? rest).map fun (args, after) => (.literal body :: args, after)
termination_by text.length
decreasing_by
  have := length_token? _h₁
  have := length_quoted? _h₂
  omega

/-- The arguments after an opening parenthesis and what follows the closing one. -/
def args? (text : List Char) : Option (List RequireArgument × List Char) :=
  match token? ')' text with
  | some rest => some ([], rest)
  | none => do
    let (body, rest) ← quoted? text
    let (args, after) ← moreArgs? rest
    return (.literal body :: args, after)

theorem length_moreArgs? {text rest : List Char} {args : List RequireArgument}
    (h : moreArgs? text = some (args, rest)) : rest.length < text.length := by
  fun_induction moreArgs? text generalizing args with
  | case1 text after heq =>
    simp only [Option.some.injEq, Prod.mk.injEq] at h
    obtain ⟨_, rfl⟩ := h
    exact length_token? heq
  | case2 => simp at h
  | case3 => simp at h
  | case4 text _ afterComma hc body tail hq ih =>
    simp only [Option.map_eq_some_iff, Prod.mk.injEq, Prod.exists] at h
    obtain ⟨b, a, hba, _, rfl⟩ := h
    have := ih hba
    have := length_token? hc
    have := length_quoted? hq
    omega

theorem length_args? {text rest : List Char} {args : List RequireArgument}
    (h : args? text = some (args, rest)) : rest.length < text.length := by
  simp only [args?] at h
  split at h
  · next after heq =>
    simp only [Option.some.injEq, Prod.mk.injEq] at h
    obtain ⟨_, rfl⟩ := h
    exact length_token? heq
  · simp only [Option.bind_eq_bind, Option.bind_eq_some_iff, Option.pure_def, Option.some.injEq,
      Prod.mk.injEq, Prod.exists] at h
    obtain ⟨_, _, hq, _, _, hm, _, rfl⟩ := h
    have := length_quoted? hq
    have := length_moreArgs? hm
    omega

/-- One step from `base` and what follows it. -/
def step? (base : RequireArgument) (text : List Char) : Option (RequireArgument × List Char) :=
  match token? '.' text with
  | some rest => (identifier? rest).map fun (name, after) => (.field base name, after)
  | none =>
    match token? '[' text with
    | some rest => do
      let (name, afterName) ← quoted? rest
      return (.key base name, ← token? ']' afterName)
    | none => do
      let (method, afterMethod) ← identifier? (← token? ':' text)
      let (args, after) ← args? (← token? '(' afterMethod)
      return (.call base method args, after)

theorem length_step? {base expr : RequireArgument} {text rest : List Char}
    (h : step? base text = some (expr, rest)) : rest.length < text.length := by
  simp only [step?] at h
  split at h
  · next after heq =>
    simp only [Option.map_eq_some_iff, Prod.mk.injEq, Prod.exists] at h
    obtain ⟨_, _, hi, _, rfl⟩ := h
    have := length_token? heq
    have := length_identifier? hi
    omega
  · split at h
    · next after heq =>
      simp only [Option.bind_eq_bind, Option.bind_eq_some_iff, Option.pure_def, Option.some.injEq,
        Prod.mk.injEq, Prod.exists] at h
      obtain ⟨_, _, hq, _, ht, _, rfl⟩ := h
      have := length_token? heq
      have := length_quoted? hq
      have := length_token? ht
      omega
    · simp only [Option.bind_eq_bind, Option.bind_eq_some_iff, Option.pure_def, Option.some.injEq,
        Prod.mk.injEq, Prod.exists] at h
      obtain ⟨_, h₁, _, _, h₂, _, h₃, _, _, h₄, _, rfl⟩ := h
      have := length_token? h₁
      have := length_identifier? h₂
      have := length_token? h₃
      have := length_args? h₄
      omega

/-- All steps of a walk from `base`, to the end of the text. -/
def steps? (base : RequireArgument) (text : List Char) : Option RequireArgument :=
  if text.isEmpty then some base
  else
    match _h : step? base text with
    | none => none
    | some (expr, rest) => steps? expr rest
termination_by text.length
decreasing_by exact length_step? _h

/-- The names at which a walk may start. -/
def roots : List String := ["game", "script"]

/-- Read a walk from its text, or nothing when the text is no walk. -/
def read? (text : String) : Option RequireArgument := do
  let (root, rest) ← identifier? (Text.trim text.toList)
  if root ∈ roots then steps? (.global root) rest else none

end RequireArgument

end LuauWorkspace
