import LuauWorkspace.DataModule
import LuauWorkspace.Proofs.DataModule.Numeral

/-! # Data modules keep their data

The expression that a data module returns is read as the value it was made of, but that an empty
table does not tell an empty object from an empty list. -/

namespace LuauWorkspace

namespace DataExpression

open DataModule

/-! ## Strings -/

theorem hexValue?_digitChar {n : Nat} (h : n < 16) :
    JsonReader.hexValue? n.digitChar = some n := by
  revert n
  decide

theorem hexNumber?_append (digits : List Char) (c : Char) :
    JsonReader.hexNumber? (digits ++ [c]) = do
      return 16 * (← JsonReader.hexNumber? digits) + (← JsonReader.hexValue? c) := by
  rw [JsonReader.hexNumber?, List.foldl_append]
  rfl

/-- The digits of a number are digits and spell the number. -/
theorem hexNumber?_hexDigits (n : Nat) :
    (∀ c ∈ Text.hexDigits n, (JsonReader.hexValue? c).isSome = true) ∧
      JsonReader.hexNumber? (Text.hexDigits n) = some n := by
  induction n using Nat.strongRecOn with
  | ind n ih =>
      rw [Text.hexDigits, Nat.toDigits_eq_if (by decide)]
      split
      · next hsmall =>
          have hvalue := hexValue?_digitChar hsmall
          refine ⟨List.forall_mem_singleton.mpr (by rw [hvalue]; rfl), ?_⟩
          simp [JsonReader.hexNumber?, hvalue]
      · next hlarge =>
          obtain ⟨hdigits, hnumber⟩ := ih (n / 16) (by omega)
          have hvalue := hexValue?_digitChar (Nat.mod_lt n (by decide : 0 < 16))
          rw [Text.hexDigits] at hdigits hnumber
          refine ⟨List.forall_mem_append.mpr ⟨hdigits, List.forall_mem_singleton.mpr (by
            rw [hvalue]; rfl)⟩, ?_⟩
          rw [hexNumber?_append, hnumber, hvalue]
          simp [Nat.div_add_mod]

theorem character?_hexDigits (c : Char) (rest : List Char) :
    character? ('\\' :: 'u' :: '\x7b' :: (Text.hexDigits c.toNat ++ '\x7d' :: rest)) =
      some (c, rest) := by
  obtain ⟨hdigits, hnumber⟩ := hexNumber?_hexDigits c.toNat
  have hne : Text.hexDigits c.toNat ≠ [] := Nat.toDigits_ne_nil
  have hspan : (Text.hexDigits c.toNat ++ '\x7d' :: rest).span
      (fun c => (JsonReader.hexValue? c).isSome) = (Text.hexDigits c.toNat, '\x7d' :: rest) := by
    apply Text.span_append hdigits
    rintro d hd
    obtain rfl := Option.some.inj hd
    rfl
  have hvalid : c.toNat.isValidChar := c.valid
  rw [character?, hspan]
  simp only [if_neg hne, hnumber, Option.bind_eq_bind, Option.bind_some, if_pos hvalid,
    Char.ofNat_toNat]

/-- Every character of a string is read back, and none of them is written as a closing quote. -/
theorem character?_stringChar (c : Char) (rest : List Char) :
    character? (stringChar c ++ rest) = some (c, rest) ∧
      ∀ more, stringChar c ++ rest ≠ '"' :: more := by
  rw [stringChar]
  by_cases hquote : c = '"' ∨ c = '\\'
  · rw [if_pos hquote]
    rcases hquote with rfl | rfl
    · exact ⟨rfl, by simp⟩
    · exact ⟨rfl, by simp⟩
  by_cases hline : c = '\n'
  · subst hline
    exact ⟨rfl, by simp⟩
  by_cases hreturn : c = '\r'
  · subst hreturn
    exact ⟨rfl, by simp⟩
  by_cases htab : c = '\t'
  · subst htab
    exact ⟨rfl, by simp⟩
  rw [if_neg hquote, if_neg hline, if_neg hreturn, if_neg htab]
  rw [not_or] at hquote
  split
  · refine ⟨?_, by simp⟩
    have hescape := character?_hexDigits c rest
    simpa using hescape
  · next hplain =>
      have hcontrol : ¬c.toNat < 0x20 := by
        intro hlow
        simp [isControl, hlow] at hplain
      refine ⟨?_, by simpa using hquote.1⟩
      rw [List.singleton_append, character?.eq_def]
      split
      · next heq => exact absurd (List.cons.inj heq).1 hquote.2
      · next heq => exact absurd (List.cons.inj heq).1 hquote.2
      · next heq =>
          obtain ⟨rfl, rfl⟩ := List.cons.inj heq
          rw [if_neg]
          simp [hquote, hcontrol]
      · next heq => cases heq

theorem characters?_flatMap (text rest : List Char) {bound : Nat} (h : text.length ≤ bound) :
    characters? bound (text.flatMap stringChar ++ '"' :: rest) = some (text, rest) := by
  induction text generalizing bound with
  | nil => cases bound <;> rfl
  | cons c text ih =>
      rw [List.length_cons] at h
      obtain ⟨bound, rfl⟩ : ∃ less, bound = less + 1 := ⟨bound - 1, by omega⟩
      obtain ⟨hread, hopen⟩ := character?_stringChar c (text.flatMap stringChar ++ '"' :: rest)
      rw [List.flatMap_cons, List.append_assoc, characters?]
      · simp only [hread, ih (Nat.le_of_succ_le_succ h), Option.bind_eq_bind, Option.bind_some,
          Option.pure_def]
      · exact hopen

theorem length_le_flatMap_stringChar (text : List Char) :
    text.length ≤ (text.flatMap stringChar).length := by
  induction text with
  | nil => exact Nat.le_refl 0
  | cons c text ih =>
      have hpos : 0 < (stringChar c).length := by
        obtain ⟨hread, -⟩ := character?_stringChar c []
        rw [List.length_pos_iff]
        intro hnil
        rw [hnil] at hread
        cases hread
      rw [List.flatMap_cons, List.length_append, List.length_cons]
      omega

/-- A string ends at its own closing quote, whatever it holds and whatever follows it. -/
theorem string?_string (text : String) (rest : List Char) :
    string? (string text ++ rest) = some (text, rest) := by
  have htext : string text ++ rest =
      '"' :: (text.toList.flatMap stringChar ++ '"' :: rest) := by
    rw [string]
    simp
  have hbound : text.toList.length ≤
      (text.toList.flatMap stringChar ++ '"' :: rest).length := by
    have hle := length_le_flatMap_stringChar text.toList
    rw [List.length_append]
    omega
  rw [htext, string?, characters?_flatMap _ _ hbound, Option.map_some]
  simp only [String.ofList_toList]

/-- Distinct strings are written differently. -/
theorem string_injective : Function.Injective string := by
  intro text other h
  have hread := string?_string text []
  rw [h, string?_string] at hread
  exact (Prod.mk.inj (Option.some.inj hread)).1.symm

end DataExpression

namespace Json

/-! ## What tables keep -/

mutual

/-- A value as tables tell it: an empty object is an empty list. -/
def asTables : Json → Json
  | array items => array (itemsAsTables items)
  | object [] => array []
  | object (member :: members) => object (membersAsTables (member :: members))
  | value => value

/-- The items of a list as tables tell them. -/
def itemsAsTables : List Json → List Json
  | [] => []
  | item :: items => item.asTables :: itemsAsTables items

/-- The members of an object as tables tell them. -/
def membersAsTables : List (String × Json) → List (String × Json)
  | [] => []
  | (name, value) :: members => (name, value.asTables) :: membersAsTables members

end

mutual

/-- The numbers in a value. -/
def numbers : Json → List JsonNumber
  | number value => [value]
  | array items => itemsNumbers items
  | object members => membersNumbers members
  | _ => []

/-- The numbers in the items of a list. -/
def itemsNumbers : List Json → List JsonNumber
  | [] => []
  | item :: items => item.numbers ++ itemsNumbers items

/-- The numbers in the members of an object. -/
def membersNumbers : List (String × Json) → List JsonNumber
  | [] => []
  | (_, value) :: members => value.numbers ++ membersNumbers members

end

/-- Whether all numbers in a value are re-read. -/
def IsReread (value : Json) : Prop := ∀ number ∈ value.numbers, number.IsReread

instance : DecidablePred IsReread := fun value =>
  inferInstanceAs (Decidable (∀ number ∈ value.numbers, number.IsReread))

theorem isReread_item {item : Json} {items : List Json}
    (h : ∀ number ∈ itemsNumbers (item :: items), number.IsReread) :
    item.IsReread ∧ ∀ number ∈ itemsNumbers items, number.IsReread :=
  List.forall_mem_append.mp h

theorem isReread_member {name : String} {value : Json} {members : List (String × Json)}
    (h : ∀ number ∈ membersNumbers ((name, value) :: members), number.IsReread) :
    value.IsReread ∧ ∀ number ∈ membersNumbers members, number.IsReread :=
  List.forall_mem_append.mp h

end Json

namespace DataExpression

open DataModule

/-! ## Values -/

/-- What follows an expression is no part of a numeral. -/
def EndsNumeral (rest : List Char) : Prop := ∀ c, rest.head? = some c → isNumeralChar c = false

theorem number?_append {negative : Bool} {body : List Char} {number : JsonNumber}
    (h : IsNumeral negative body (some number)) {rest : List Char} (hrest : EndsNumeral rest) :
    number? negative (body ++ rest) = some (.number number, rest) := by
  rw [number?, Text.span_append h.chars hrest]
  simp only [h.value, Option.map_some]

theorem value?_number {number : JsonNumber} (h : number.IsReread) (bound : Nat)
    {rest : List Char} (hrest : EndsNumeral rest) :
    value? (bound + 1) (number.toText.toList ++ rest) = some (.number number, rest) := by
  obtain ⟨negative, body, htext, hbody⟩ := isNumeral_toText h
  obtain ⟨c, more, rfl, hdigit⟩ := hbody.first
  have hread := number?_append hbody hrest
  have hne : ∀ mark : Char, mark.isDigit = false → c ≠ mark := fun mark => ne_of_isDigit hdigit
  have hskip : skip (c :: (more ++ rest)) = c :: (more ++ rest) := by
    rw [skip, List.dropWhile_cons_of_neg]
    simpa using ⟨hne ' ' rfl, hne '\t' rfl, hne '\n' rfl, hne '\r' rfl⟩
  cases negative with
  | true =>
      have hminus : skip ('-' :: (c :: more ++ rest)) = '-' :: (c :: more ++ rest) := rfl
      rw [htext, if_pos rfl, List.append_assoc, List.singleton_append, value?, hminus]
      simp only [List.cons_append, hskip]
      exact hread
  | false =>
      rw [htext, if_neg Bool.false_ne_true, List.nil_append, List.cons_append, value?, hskip]
      -- A digit opens nothing but a numeral.
      split
      · next heq => exact absurd (List.cons.inj heq).1 (hne _ rfl)
      · next heq => exact absurd (List.cons.inj heq).1 (hne _ rfl)
      · next heq => exact absurd (List.cons.inj heq).1 (hne _ rfl)
      · next heq => exact absurd (List.cons.inj heq).1 (hne _ rfl)
      · next heq => exact absurd (List.cons.inj heq).1 (hne _ rfl)
      · next heq => exact absurd (List.cons.inj heq).1 (hne _ rfl)
      · exact hread

/-- White space before an expression does not count. -/
theorem value?_space (bound : Nat) (text : List Char) :
    value? bound (' ' :: text) = value? bound text := by
  cases bound with
  | zero => rw [value?, value?]
  | succ bound => rw [value?, value?]; rfl

theorem items?_space (bound : Nat) (text : List Char) :
    items? bound (' ' :: text) = items? bound text := by
  cases bound with
  | zero => rw [items?, items?]
  | succ bound => rw [items?, items?, value?_space]

theorem fields?_space (bound : Nat) (text : List Char) :
    fields? bound (' ' :: text) = fields? bound text := by
  cases bound with
  | zero => rw [fields?, fields?]
  | succ bound => rw [fields?, fields?]; rfl

theorem endsNumeral_cons {c : Char} (h : isNumeralChar c = false) (rest : List Char) :
    EndsNumeral (c :: rest) := by
  intro d hd
  rwa [← Option.some.inj hd]

/-- Whether an expression can open with a character, but a table that goes on cannot. -/
def opens (c : Char) : Bool := c.isDigit || "ntf-\"\x7b".toList.contains c

theorem exists_expression_eq {value : Json} (h : value.IsReread) :
    ∃ c more, expression value = c :: more ∧ opens c = true := by
  cases value with
  | null => exact ⟨'n', _, rfl, rfl⟩
  | bool value =>
      cases value with
      | true => exact ⟨'t', _, rfl, rfl⟩
      | false => exact ⟨'f', _, rfl, rfl⟩
  | number number =>
      obtain ⟨negative, body, htext, hbody⟩ := isNumeral_toText (h number List.mem_cons_self)
      obtain ⟨c, more, rfl, hdigit⟩ := hbody.first
      rw [expression, htext]
      cases negative with
      | true => exact ⟨'-', _, rfl, rfl⟩
      | false => exact ⟨c, more, rfl, by rw [opens, hdigit, Bool.true_or]⟩
  | string text => exact ⟨'"', _, rfl, rfl⟩
  | array items =>
      rw [expression, table]
      split
      · exact ⟨'\x7b', _, rfl, rfl⟩
      · exact ⟨'\x7b', _, rfl, rfl⟩
  | object members =>
      rw [expression, table]
      split
      · exact ⟨'\x7b', _, rfl, rfl⟩
      · exact ⟨'\x7b', _, rfl, rfl⟩

/-- An expression has no white space in front, and opens like neither the end of a table nor the
name of a field. -/
theorem expression_first {value : Json} (h : value.IsReread) (rest : List Char) :
    skip (expression value ++ rest) = expression value ++ rest ∧
      (∀ more, expression value ++ rest ≠ '\x7d' :: more) ∧
      ∀ more, expression value ++ rest ≠ '[' :: more := by
  obtain ⟨c, more, heq, hopens⟩ := exists_expression_eq h
  have hne : ∀ mark : Char, opens mark = false → c ≠ mark := by
    rintro mark hmark rfl
    rw [hopens] at hmark
    cases hmark
  rw [heq, List.cons_append]
  refine ⟨?_, fun other heq => hne _ rfl (List.cons.inj heq).1,
    fun other heq => hne _ rfl (List.cons.inj heq).1⟩
  rw [skip, List.dropWhile_cons_of_neg]
  simpa using ⟨hne ' ' rfl, hne '\t' rfl, hne '\n' rfl, hne '\r' rfl⟩

/-! ## Steps of the reader -/

theorem value?_string (bound : Nat) (text : String) (rest : List Char) :
    value? (bound + 1) (string text ++ rest) = some (.string text, rest) := by
  have hread := string?_string text rest
  have hopen : string text ++ rest = '"' :: (text.toList.flatMap stringChar ++ ['"'] ++ rest) := rfl
  have hskip : ∀ more, skip ('"' :: more) = '"' :: more := fun _ => rfl
  rw [hopen] at hread ⊢
  rw [value?, hskip]
  simp only [hread, Option.map_some]

theorem value?_items {bound : Nat} {text rest : List Char} {items : List Json}
    (hskip : skip text = text) (hclose : ∀ more, text ≠ '\x7d' :: more)
    (hname : ∀ more, text ≠ '[' :: more) (h : items? bound text = some (items, rest)) :
    value? (bound + 1) ('\x7b' :: ' ' :: text) = some (.array items, rest) := by
  have hopen : skip ('\x7b' :: ' ' :: text) = '\x7b' :: ' ' :: text := rfl
  have hinside : skip (' ' :: text) = text := hskip
  rw [value?, hopen]
  -- The text is neither a closing brace nor the name of a field.
  simp only [hinside, h, Option.map_some]

theorem value?_fields {bound : Nat} {text rest : List Char} {fields : List (String × Json)}
    (h : fields? bound ('[' :: text) = some (fields, rest)) :
    value? (bound + 1) ('\x7b' :: ' ' :: '[' :: text) = some (.object fields, rest) := by
  have hopen : skip ('\x7b' :: ' ' :: '[' :: text) = '\x7b' :: ' ' :: '[' :: text := rfl
  have hinside : skip (' ' :: '[' :: text) = '[' :: text := rfl
  rw [value?, hopen]
  simp only [hinside, h, Option.map_some]

/-- The last item of a table. -/
theorem items?_last {bound : Nat} {text rest : List Char} {item : Json}
    (h : value? bound text = some (item, ' ' :: '\x7d' :: rest)) :
    items? (bound + 1) text = some ([item], rest) := by
  have hclose : skip (' ' :: '\x7d' :: rest) = '\x7d' :: rest := rfl
  rw [items?]
  simp only [h, Option.bind_eq_bind, Option.bind_some, hclose, Option.pure_def]

/-- An item before others. -/
theorem items?_more {bound : Nat} {text more rest : List Char} {item : Json} {items : List Json}
    (h : value? bound text = some (item, ',' :: ' ' :: more))
    (hmore : items? bound more = some (items, rest)) :
    items? (bound + 1) text = some (item :: items, rest) := by
  have hcomma : skip (',' :: ' ' :: more) = ',' :: ' ' :: more := rfl
  rw [items?]
  simp only [h, Option.bind_eq_bind, Option.bind_some, hcomma, items?_space, hmore,
    Option.pure_def]

/-- The name of a field, in brackets and before an equals sign. -/
theorem fields?_name {bound : Nat} (name : String) {text more : List Char} {value : Json}
    (h : value? bound text = some (value, more)) :
    fields? (bound + 1) ('[' :: string name ++ "] = ".toList ++ text) =
      match skip more with
      | ',' :: rest =>
        (fields? bound rest).map fun (fields, rest) => ((name, value) :: fields, rest)
      | '\x7d' :: rest => some ([(name, value)], rest)
      | _ => none := by
  have htext : '[' :: string name ++ "] = ".toList ++ text =
      '[' :: (string name ++ ']' :: ' ' :: '=' :: ' ' :: text) := by
    simp
  have hopen : ∀ rest, skip ('[' :: rest) = '[' :: rest := fun _ => rfl
  have hquote : ∀ rest, skip (string name ++ rest) = string name ++ rest := fun _ => rfl
  have hclose : ∀ rest, skip (']' :: rest) = ']' :: rest := fun _ => rfl
  have hequals : skip (' ' :: '=' :: ' ' :: text) = '=' :: ' ' :: text := rfl
  rw [htext, fields?]
  simp only [hopen, hquote, string?_string, hclose, hequals, value?_space, h,
    Option.bind_eq_bind, Option.bind_some, Option.pure_def, Option.map_eq_bind]
  rfl

/-! ## Tables -/

theorem table_of_ne_nil {items : List (List Char)} (h : items ≠ []) :
    table items =
      '\x7b' :: ' ' :: (Text.joinWith [',', ' '] items ++ [' ', '\x7d']) := by
  rw [table, if_neg (by simpa using h)]
  simp

theorem joinWith_cons {separator piece : List Char} {pieces : List (List Char)} (h : pieces ≠ []) :
    Text.joinWith separator (piece :: pieces) =
      piece ++ (separator ++ Text.joinWith separator pieces) := by
  rw [Text.joinWith, List.append_assoc]
  exact h

theorem itemExpressions_ne_nil {items : List Json} (h : items ≠ []) :
    itemExpressions items ≠ [] := by
  cases items with
  | nil => exact absurd rfl h
  | cons item items => simp [itemExpressions]

theorem memberExpressions_ne_nil {members : List (String × Json)} (h : members ≠ []) :
    memberExpressions members ≠ [] := by
  cases members with
  | nil => exact absurd rfl h
  | cons member members => simp [memberExpressions]

/-- The items of a table begin with the first one. -/
theorem exists_joinWith_cons (separator piece : List Char) (pieces : List (List Char)) :
    ∃ more, Text.joinWith separator (piece :: pieces) = piece ++ more := by
  cases pieces with
  | nil => exact ⟨[], (List.append_nil _).symm⟩
  | cons next pieces => exact ⟨_, joinWith_cons (by simp)⟩

/-! ## Values -/

mutual

/-- An expression is read as the value it was made of. -/
theorem value?_expression (value : Json) (h : value.IsReread) (bound : Nat) (rest : List Char)
    (hbound : (expression value).length < bound) (hrest : EndsNumeral rest) :
    value? bound (expression value ++ rest) = some (value.asTables, rest) := by
  obtain ⟨bound, rfl⟩ : ∃ less, bound = less + 1 := ⟨bound - 1, by omega⟩
  cases value with
  | null =>
      rw [value?]
      rfl
  | bool value =>
      rw [value?]
      cases value with
      | true => rfl
      | false => rfl
  | number number => exact value?_number (h number List.mem_cons_self) bound hrest
  | string text => exact value?_string bound text rest
  | array items =>
      cases items with
      | nil =>
          rw [value?]
          rfl
      | cons item items =>
          have htable := table_of_ne_nil (itemExpressions_ne_nil (List.cons_ne_nil item items))
          rw [expression, htable] at hbound ⊢
          have hitems := items?_joined (item :: items) (List.cons_ne_nil _ _) h bound rest (by
            simp only [List.length_cons, List.length_append, List.length_nil] at hbound
            omega)
          obtain ⟨more, hmore⟩ :=
            exists_joinWith_cons [',', ' '] (expression item) (itemExpressions items)
          rw [itemExpressions, hmore] at hitems ⊢
          rw [List.append_assoc] at hitems
          obtain ⟨hskip, hclose, hname⟩ :=
            expression_first (Json.isReread_item h).1 (more ++ ' ' :: '\x7d' :: rest)
          have hread := value?_items hskip hclose hname hitems
          simpa [Json.asTables] using hread
  | object members =>
      cases members with
      | nil =>
          rw [value?]
          rfl
      | cons member members =>
          obtain ⟨name, value⟩ := member
          have htable := table_of_ne_nil (memberExpressions_ne_nil
            (List.cons_ne_nil (name, value) members))
          rw [expression, htable] at hbound ⊢
          have hfields := fields?_joined ((name, value) :: members) (List.cons_ne_nil _ _) h bound
            rest (by
              simp only [List.length_cons, List.length_append, List.length_nil] at hbound
              omega)
          obtain ⟨more, hmore⟩ := exists_joinWith_cons [',', ' ']
            ('[' :: string name ++ "] = ".toList ++ expression value) (memberExpressions members)
          rw [memberExpressions, hmore] at hfields ⊢
          have hread := value?_fields hfields
          simpa [Json.asTables] using hread

theorem items?_joined (items : List Json) (hne : items ≠ [])
    (h : ∀ number ∈ Json.itemsNumbers items, number.IsReread) (bound : Nat) (rest : List Char)
    (hbound : (Text.joinWith [',', ' '] (itemExpressions items)).length + 1 < bound) :
    items? bound (Text.joinWith [',', ' '] (itemExpressions items) ++ ' ' :: '\x7d' :: rest) =
      some (Json.itemsAsTables items, rest) := by
  obtain ⟨bound, rfl⟩ : ∃ less, bound = less + 1 := ⟨bound - 1, by omega⟩
  cases items with
  | nil => exact absurd rfl hne
  | cons item items =>
      obtain ⟨hitem, hrest⟩ := Json.isReread_item h
      by_cases hlast : items = []
      · subst hlast
        exact items?_last (value?_expression item hitem bound _ (Nat.lt_of_succ_lt_succ hbound)
          (endsNumeral_cons rfl _))
      · rw [itemExpressions, joinWith_cons (itemExpressions_ne_nil hlast)] at hbound ⊢
        simp only [List.length_append, List.length_cons, List.length_nil] at hbound
        have hread := value?_expression item hitem bound (',' :: ' ' ::
          (Text.joinWith [',', ' '] (itemExpressions items) ++ ' ' :: '\x7d' :: rest)) (by omega)
          (endsNumeral_cons rfl _)
        have hitems := items?_joined items hlast hrest bound rest (by omega)
        rw [List.append_assoc]
        exact items?_more hread hitems

theorem fields?_joined (members : List (String × Json)) (hne : members ≠ [])
    (h : ∀ number ∈ Json.membersNumbers members, number.IsReread) (bound : Nat) (rest : List Char)
    (hbound : (Text.joinWith [',', ' '] (memberExpressions members)).length + 1 < bound) :
    fields? bound (Text.joinWith [',', ' '] (memberExpressions members) ++ ' ' :: '\x7d' :: rest) =
      some (Json.membersAsTables members, rest) := by
  obtain ⟨bound, rfl⟩ : ∃ less, bound = less + 1 := ⟨bound - 1, by omega⟩
  cases members with
  | nil => exact absurd rfl hne
  | cons member members =>
      obtain ⟨name, value⟩ := member
      obtain ⟨hvalue, hrest⟩ := Json.isReread_member h
      by_cases hlast : members = []
      · subst hlast
        have hlength : (expression value).length < bound := by
          simp only [memberExpressions, Text.joinWith, List.length_append, List.length_cons]
            at hbound
          omega
        have hread := value?_expression value hvalue bound (' ' :: '\x7d' :: rest) hlength
          (endsNumeral_cons rfl _)
        rw [memberExpressions, memberExpressions, Text.joinWith, List.append_assoc,
          fields?_name name hread]
        rfl
      · rw [memberExpressions, joinWith_cons (memberExpressions_ne_nil hlast)] at hbound ⊢
        simp only [List.length_append, List.length_cons, List.length_nil] at hbound
        have hread := value?_expression value hvalue bound (',' :: ' ' ::
          (Text.joinWith [',', ' '] (memberExpressions members) ++ ' ' :: '\x7d' :: rest))
          (by omega) (endsNumeral_cons rfl _)
        have hfields := fields?_joined members hlast hrest bound rest (by omega)
        have hcomma : ∀ more, skip (',' :: more) = ',' :: more := fun _ => rfl
        rw [List.append_assoc, List.append_assoc _ (expression value)]
        refine (fields?_name name hread).trans ?_
        simp only [hcomma, fields?_space, hfields, Option.map_some]
        rfl

end

/-- The expression of a value is read as the value, from its first character to its last. -/
theorem read?_expression {value : Json} (h : value.IsReread) :
    read? (expression value) = some value.asTables := by
  have hread := value?_expression value h ((expression value).length + 1) [] (Nat.lt_succ_self _)
    (by rintro c ⟨⟩)
  rw [List.append_nil] at hread
  rw [read?, hread]

theorem ofJson_eq (value : Json) :
    ofJson value = "--!strict\nreturn " ++ String.ofList (expression value) ++ "\n" := by
  have hparts : ∀ (front : String) (body : List Char),
      String.ofList (front.toList ++ body ++ ['\n']) = front ++ String.ofList body ++ "\n" := by
    intro front body
    rw [String.ofList_append, String.ofList_append, String.ofList_toList]
  exact hparts _ _

/-- The module of a JSON text returns one expression, which is read as the value of the text when
its numbers are re-read. The strings in it end where they should, and distinct ones are written
differently. -/
theorem ofText_reads {text : String} {value : Json} (h : Json.read text = .ok value)
    (hreread : value.IsReread) :
    (∃ t, ofText text = .ok ("--!strict\nreturn " ++ String.ofList t ++ "\n") ∧
      read? t = some value.asTables) ∧
    (∀ (s : String) (rest : List Char), string? (string s ++ rest) = some (s, rest)) ∧
    Function.Injective string := by
  refine ⟨⟨expression value, ?_, read?_expression hreread⟩, string?_string, string_injective⟩
  rw [ofText, h, Except.map, ofJson_eq]

/-- A JSON text with numbers, strings and containers of all kinds. -/
def sampleText : String :=
  "[null, true, -3, 1.5, \"a\\\"b\\n\\u0001\", \x7b\"k\": \x7b\x7d\x7d, []]"

/-- Its expression is read as the value of the text. -/
theorem ofText_reads_sample :
    ∃ value t, Json.read sampleText = .ok value ∧ value.IsReread ∧
      ofText sampleText = .ok ("--!strict\nreturn " ++ String.ofList t ++ "\n") ∧
      read? t = some value.asTables := by
  have hread : (Json.read sampleText).toOption.any (decide ·.IsReread) = true := by decide +kernel
  cases hvalue : Json.read sampleText with
  | error cause =>
      rw [hvalue] at hread
      cases hread
  | ok value =>
      rw [hvalue] at hread
      have hreread : value.IsReread := of_decide_eq_true hread
      obtain ⟨⟨t, hmodule, hreads⟩, -⟩ := ofText_reads hvalue hreread
      exact ⟨value, t, rfl, hreread, hmodule, hreads⟩

end DataExpression

end LuauWorkspace
