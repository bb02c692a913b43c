import LuauWorkspace.Proofs.DataModule.Grammar
import LuauWorkspace.Proofs.Text.Split
import Mathlib.Data.Rat.Lemmas
import Mathlib.Tactic.Ring

/-! # Numbers as numerals

The text of a number is a numeral, with a minus sign in front of it or not. The numeral of an
integer is read as the integer, that of a float as the float nearest to its shortest decimal. -/

namespace LuauWorkspace

namespace DataExpression

/-! ## Digits -/

/-- Decimal digits, of which there is at least one. -/
structure IsDigits (digits : List Char) : Prop where
  ne_nil : digits ≠ []
  isDigit : ∀ c ∈ digits, c.isDigit = true

theorem isDigits_toDigits (n : Nat) : IsDigits (Nat.toDigits 10 n) :=
  ⟨Nat.toDigits_ne_nil, fun _ hc => Nat.isDigit_of_mem_toDigits (by decide) (by decide) hc⟩

theorem isDigit_of_mem_zeros {n : Nat} {c : Char} (h : c ∈ List.replicate n '0') :
    c.isDigit = true := by
  rw [List.eq_of_mem_replicate h]
  rfl

theorem isDigits_zero : IsDigits ['0'] :=
  ⟨List.cons_ne_nil _ _, List.forall_mem_singleton.mpr rfl⟩

theorem IsDigits.append {digits : List Char} (h : IsDigits digits) {more : List Char}
    (hmore : ∀ c ∈ more, c.isDigit = true) : IsDigits (digits ++ more) := by
  refine ⟨fun hnil => h.ne_nil (List.append_eq_nil_iff.mp hnil).1, fun c hc => ?_⟩
  rcases List.mem_append.mp hc with hc | hc
  · exact h.isDigit c hc
  · exact hmore c hc

theorem natural?_of_isDigits {digits : List Char} (h : IsDigits digits) :
    natural? digits = some (Nat.ofDigitChars 10 digits 0) := by
  rw [natural?, if_pos ⟨h.ne_nil, List.all_eq_true.mpr h.isDigit⟩]

theorem ne_of_isDigit {c mark : Char} (h : c.isDigit = true) (hmark : mark.isDigit = false) :
    c ≠ mark := by
  rintro rfl
  rw [h] at hmark
  cases hmark

theorem isNumeralChar_of_isDigit {c : Char} (h : c.isDigit = true) : isNumeralChar c = true := by
  simp [isNumeralChar, h]

/-! ## Decimals -/

/-- The value of a decimal does not change when zeros are put at its end. -/
theorem nearest?_zeros (negative : Bool) (n zeros : Nat) (exponent : Int) :
    nearest? negative (n * 10 ^ zeros) (exponent - zeros) = nearest? negative n exponent := by
  have hpos : ∀ k, tenTo k ≠ 0 := fun k => (Nat.pow_pos (by decide)).ne'
  have hten : ∀ k, tenTo k = 10 ^ k := fun _ => rfl
  have hpower : 10 ^ zeros * tenTo (exponent - zeros).toNat * tenTo (-exponent).toNat =
      tenTo exponent.toNat * tenTo (-(exponent - zeros)).toNat := by
    simp only [hten, ← Nat.pow_add]
    congr 1
    omega
  have hvalue : mkRat ((n * 10 ^ zeros * tenTo (exponent - zeros).toNat : Nat) : Int)
      (tenTo (-(exponent - zeros)).toNat) =
        mkRat ((n * tenTo exponent.toNat : Nat) : Int) (tenTo (-exponent).toNat) := by
    rw [Rat.mkRat_eq_iff (hpos _) (hpos _)]
    norm_cast
    calc n * 10 ^ zeros * tenTo (exponent - zeros).toNat * tenTo (-exponent).toNat
        = n * (10 ^ zeros * tenTo (exponent - zeros).toNat * tenTo (-exponent).toNat) := by ring
      _ = n * tenTo exponent.toNat * tenTo (-(exponent - zeros)).toNat := by rw [hpower]; ring
  simp only [nearest?]
  push_cast at hvalue ⊢
  rw [hvalue]

/-! ## Parts of a numeral -/

/-- What can follow the digits of a numeral: nothing, or the letter of an exponent and a number. -/
inductive IsPower : List Char → Int → Prop where
  | absent : IsPower [] 0
  | written {power : List Char} {exponent : Int} (h : exponent? power = some exponent) :
      IsPower ('e' :: power) exponent

theorem exponent?_toDigits (exponent : Int) :
    exponent? (if exponent < 0 then '-' :: Nat.toDigits 10 (-exponent).toNat
      else '+' :: Nat.toDigits 10 exponent.toNat) = some exponent := by
  split
  · next hneg =>
      rw [exponent?, natural?_of_isDigits (isDigits_toDigits _), Nat.ofDigitChars_ten_toDigits,
        Option.map_some]
      congr 1
      omega
  · next hpos =>
      rw [exponent?, natural?_of_isDigits (isDigits_toDigits _), Nat.ofDigitChars_ten_toDigits,
        Option.map_some]
      congr 1
      omega

theorem IsPower.power?_eq {power : List Char} {exponent : Int} (h : IsPower power exponent) :
    power? power = some exponent := by
  cases h with
  | absent => rfl
  | written h => exact h

/-- The letter of the exponent ends what stands before it. -/
theorem span_power {mantissa power : List Char} {exponent : Int}
    (hmantissa : ∀ c ∈ mantissa, c.isDigit = true ∨ c = '.') (hpower : IsPower power exponent) :
    (mantissa ++ power).span (fun c => c ≠ 'e' ∧ c ≠ 'E') = (mantissa, power) := by
  apply Text.span_append
  · intro c hc
    rcases hmantissa c hc with hdigit | rfl
    · simpa using ⟨ne_of_isDigit hdigit rfl, ne_of_isDigit hdigit rfl⟩
    · decide
  · intro c hc
    cases hpower with
    | absent => cases hc
    | written _ =>
        obtain rfl := Option.some.inj hc
        decide

/-- The point ends the digits before it. -/
theorem span_whole {whole : List Char} (hwhole : ∀ c ∈ whole, c.isDigit = true)
    {places : List Char} (hplaces : ∀ c, places.head? = some c → c = '.') :
    (whole ++ places).span (· ≠ '.') = (whole, places) := by
  apply Text.span_append
  · intro c hc
    simpa using ne_of_isDigit (hwhole c hc) (rfl : '.'.isDigit = false)
  · intro c hc
    simpa using hplaces c hc

/-- Digits alone are an integer. -/
theorem numeral?_integer (negative : Bool) {whole : List Char} (h : IsDigits whole) :
    numeral? negative whole = some (.integer (if negative then
      -(Nat.ofDigitChars 10 whole 0 : Int) else Nat.ofDigitChars 10 whole 0)) := by
  have htoken := span_power (fun c hc => .inl (h.isDigit c hc)) .absent
  have hwhole : (whole ++ []).span (· ≠ '.') = (whole, []) := span_whole h.isDigit (by simp)
  rw [List.append_nil] at htoken hwhole
  rw [numeral?, htoken]
  simp only [hwhole, natural?_of_isDigits h]
  rfl

/-- Digits with an exponent are a float. -/
theorem numeral?_scientific (negative : Bool) {whole power : List Char} {exponent : Int}
    (h : IsDigits whole) (hpower : exponent? power = some exponent) :
    numeral? negative (whole ++ 'e' :: power) =
      (nearest? negative (Nat.ofDigitChars 10 whole 0) exponent).map .float := by
  have htoken := span_power (fun c hc => .inl (h.isDigit c hc)) (.written hpower)
  have hwhole : (whole ++ []).span (· ≠ '.') = (whole, []) := span_whole h.isDigit (by simp)
  rw [List.append_nil] at hwhole
  rw [numeral?, htoken]
  simp only [hwhole, natural?_of_isDigits h, power?, hpower, Option.bind_eq_bind, Option.bind_some,
    Option.pure_def, Option.map_eq_bind]
  rfl

/-- Digits with a fraction are a float, with or without an exponent. -/
theorem numeral?_fraction (negative : Bool) {whole places power : List Char} {exponent : Int}
    (h : IsDigits whole) (hplaces : IsDigits places) (hpower : IsPower power exponent) :
    numeral? negative (whole ++ '.' :: places ++ power) =
      (nearest? negative (Nat.ofDigitChars 10 (whole ++ places) 0)
        (exponent - places.length)).map .float := by
  have hmantissa : ∀ c ∈ whole ++ '.' :: places, c.isDigit = true ∨ c = '.' := by
    intro c hc
    rcases List.mem_append.mp hc with hc | hc
    · exact .inl (h.isDigit c hc)
    · rcases List.mem_cons.mp hc with rfl | hc
      · exact .inr rfl
      · exact .inl (hplaces.isDigit c hc)
  have hwhole : (whole ++ '.' :: places).span (· ≠ '.') = (whole, '.' :: places) :=
    span_whole h.isDigit fun c hc => (Option.some.inj hc).symm
  rw [numeral?, span_power hmantissa hpower]
  simp only [hwhole, natural?_of_isDigits h, natural?_of_isDigits hplaces,
    hpower.power?_eq, Option.bind_eq_bind, Option.bind_some, Option.pure_def, Option.map_eq_bind]
  rfl

/-! ## Numerals and their values -/

/-- A text without a sign is a numeral with the value `number?`. -/
structure IsNumeral (negative : Bool) (body : List Char) (number? : Option JsonNumber) :
    Prop where
  first : ∃ c rest, body = c :: rest ∧ c.isDigit = true
  chars : ∀ c ∈ body, isNumeralChar c = true
  value : numeral? negative body = number?

theorem IsDigits.exists_append {digits : List Char} (h : IsDigits digits) (rest : List Char) :
    ∃ c more, digits ++ rest = c :: more ∧ c.isDigit = true := by
  cases digits with
  | nil => exact absurd rfl h.ne_nil
  | cons c digits => exact ⟨c, digits ++ rest, rfl, h.isDigit c List.mem_cons_self⟩

theorem isNumeral_integer (negative : Bool) (n : Nat) :
    IsNumeral negative (Nat.toDigits 10 n)
      (some (.integer (if negative then -(n : Int) else n))) := by
  have hdigits := isDigits_toDigits n
  refine ⟨?_, fun c hc => isNumeralChar_of_isDigit (hdigits.isDigit c hc), ?_⟩
  · simpa using hdigits.exists_append []
  · rw [numeral?_integer negative hdigits, Nat.ofDigitChars_ten_toDigits]

/-- Digits with a fraction stand for a decimal when they are its digits, followed by zeros. -/
theorem isNumeral_fraction {negative : Bool} {whole places power : List Char} {written : Int}
    (h : IsDigits whole) (hplaces : IsDigits places) (hpower : IsPower power written)
    (hchars : ∀ c ∈ power, isNumeralChar c = true) {n zeros : Nat} {exponent : Int}
    (hdigits : Nat.ofDigitChars 10 (whole ++ places) 0 = n * 10 ^ zeros)
    (hexponent : written - places.length = exponent - zeros) :
    IsNumeral negative (whole ++ '.' :: places ++ power)
      ((nearest? negative n exponent).map .float) := by
  refine ⟨?_, fun c hc => ?_, ?_⟩
  · rw [List.append_assoc]
    exact h.exists_append _
  · rcases List.mem_append.mp hc with hc | hc
    · rcases List.mem_append.mp hc with hc | hc
      · exact isNumeralChar_of_isDigit (h.isDigit c hc)
      · rcases List.mem_cons.mp hc with rfl | hc
        · rfl
        · exact isNumeralChar_of_isDigit (hplaces.isDigit c hc)
    · exact hchars c hc
  · rw [numeral?_fraction negative h hplaces hpower, hdigits, hexponent, nearest?_zeros]

/-- The sign and the digits of an exponent. -/
theorem exists_power (exponent : Int) :
    ∃ power, power = (if exponent < 0 then '-' :: Nat.toDigits 10 (-exponent).toNat
      else '+' :: Nat.toDigits 10 exponent.toNat) ∧ exponent? power = some exponent ∧
      ∀ c ∈ power, isNumeralChar c = true := by
  refine ⟨_, rfl, exponent?_toDigits exponent, fun c hc => ?_⟩
  have hdigits : ∀ n, ∀ c ∈ Nat.toDigits 10 n, isNumeralChar c = true := fun n c hc =>
    isNumeralChar_of_isDigit ((isDigits_toDigits n).isDigit c hc)
  split at hc
  · rcases List.mem_cons.mp hc with rfl | hc
    · rfl
    · exact hdigits _ c hc
  · rcases List.mem_cons.mp hc with rfl | hc
    · rfl
    · exact hdigits _ c hc

theorem ofDigitChars_digitsOf (d : Decimal) :
    Nat.ofDigitChars 10 (Decimal.digitsOf d.digits) 0 = d.digits :=
  Nat.ofDigitChars_ten_toDigits

theorem toList_sign (negative : Bool) :
    (if negative then "-" else "").toList = if negative then ['-'] else [] := by
  cases negative with
  | true => rfl
  | false => rfl

/-- Digits with zeros before the point, and one after it. -/
theorem isNumeral_zerosAfter {d : Decimal} (h : 0 ≤ d.exponent) :
    IsNumeral d.negative
      (Decimal.digitsOf d.digits ++ List.replicate d.exponent.toNat '0' ++ '.' :: ['0'] ++ [])
      ((nearest? d.negative d.digits d.exponent).map .float) := by
  have hall : IsDigits (Decimal.digitsOf d.digits) := isDigits_toDigits d.digits
  have hdigits : Nat.ofDigitChars 10
      (Decimal.digitsOf d.digits ++ List.replicate d.exponent.toNat '0' ++ ['0']) 0 =
        d.digits * 10 ^ (d.exponent.toNat + 1) := by
    rw [List.append_assoc, ← List.replicate_one, List.replicate_append_replicate,
      Nat.ofDigitChars_append, ofDigitChars_digitsOf, Nat.ofDigitChars_replicate_zero, Nat.mul_comm]
  refine isNumeral_fraction (hall.append fun _ => isDigit_of_mem_zeros) isDigits_zero .absent
    (by simp) hdigits ?_
  rw [List.length_singleton]
  omega

/-- Digits with the point between two of them. -/
theorem isNumeral_pointBetween {d : Decimal} {cut : Nat} (h : d.exponent < 0) (hcut : 0 < cut)
    (hlength : cut + (-d.exponent).toNat = (Decimal.digitsOf d.digits).length) :
    IsNumeral d.negative
      ((Decimal.digitsOf d.digits).take cut ++ '.' :: (Decimal.digitsOf d.digits).drop cut ++ [])
      ((nearest? d.negative d.digits d.exponent).map .float) := by
  have hall : IsDigits (Decimal.digitsOf d.digits) := isDigits_toDigits d.digits
  have hdigits : Nat.ofDigitChars 10 ((Decimal.digitsOf d.digits).take cut ++
      (Decimal.digitsOf d.digits).drop cut) 0 = d.digits * 10 ^ 0 := by
    rw [List.take_append_drop, ofDigitChars_digitsOf, Nat.pow_zero, Nat.mul_one]
  have hfront : ((Decimal.digitsOf d.digits).take cut).length = cut := by
    rw [List.length_take]
    omega
  have hback : ((Decimal.digitsOf d.digits).drop cut).length = (-d.exponent).toNat := by
    rw [List.length_drop]
    omega
  have hwhole : IsDigits ((Decimal.digitsOf d.digits).take cut) :=
    ⟨List.length_pos_iff.mp (by omega), fun c hc => hall.isDigit c (List.mem_of_mem_take hc)⟩
  have hplaces : IsDigits ((Decimal.digitsOf d.digits).drop cut) :=
    ⟨List.length_pos_iff.mp (by omega), fun c hc => hall.isDigit c (List.mem_of_mem_drop hc)⟩
  refine isNumeral_fraction hwhole hplaces .absent (by simp) hdigits ?_
  omega

/-- Digits after the point, with zeros between. -/
theorem isNumeral_zerosBefore {d : Decimal} {zeros : Nat} (h : d.exponent < 0)
    (hlength : zeros + (Decimal.digitsOf d.digits).length = (-d.exponent).toNat) :
    IsNumeral d.negative
      (['0'] ++ '.' :: (List.replicate zeros '0' ++ Decimal.digitsOf d.digits) ++ [])
      ((nearest? d.negative d.digits d.exponent).map .float) := by
  have hall : IsDigits (Decimal.digitsOf d.digits) := isDigits_toDigits d.digits
  have hdigits : Nat.ofDigitChars 10
      (['0'] ++ (List.replicate zeros '0' ++ Decimal.digitsOf d.digits)) 0 =
        d.digits * 10 ^ 0 := by
    rw [← List.append_assoc, ← List.replicate_one, List.replicate_append_replicate,
      Nat.ofDigitChars_append, Nat.ofDigitChars_replicate_zero, Nat.mul_zero,
      ofDigitChars_digitsOf, Nat.pow_zero, Nat.mul_one]
  have hplaces : IsDigits (List.replicate zeros '0' ++ Decimal.digitsOf d.digits) := by
    refine ⟨fun hnil => hall.ne_nil (List.append_eq_nil_iff.mp hnil).2, fun c hc => ?_⟩
    rcases List.mem_append.mp hc with hc | hc
    · exact isDigit_of_mem_zeros hc
    · exact hall.isDigit c hc
  refine isNumeral_fraction isDigits_zero hplaces .absent (by simp) hdigits ?_
  rw [List.length_append, List.length_replicate]
  omega

/-- The digits of a decimal in their places, with a fraction. -/
theorem isNumeral_positional (d : Decimal) :
    ∃ body, (if 0 ≤ d.exponent then d.positional ++ ".0" else d.positional).toList =
        (if d.negative then ['-'] else []) ++ body ∧
      IsNumeral d.negative body ((nearest? d.negative d.digits d.exponent).map .float) := by
  by_cases hexponent : 0 ≤ d.exponent
  · refine ⟨_, ?_, isNumeral_zerosAfter hexponent⟩
    rw [if_pos hexponent, Decimal.positional, if_pos hexponent]
    simp [toList_sign]
  · have hneg : d.exponent < 0 := Int.not_le.mp hexponent
    rw [if_neg hexponent, Decimal.positional, if_neg hexponent]
    by_cases hplaces : (-d.exponent).toNat < (Decimal.digitsOf d.digits).length
    · rw [if_pos hplaces]
      exact ⟨_, by simp [toList_sign],
        isNumeral_pointBetween hneg (Nat.sub_pos_of_lt hplaces) (Nat.sub_add_cancel hplaces.le)⟩
    · rw [if_neg hplaces]
      exact ⟨_, by simp [toList_sign],
        isNumeral_zerosBefore hneg (Nat.sub_add_cancel (Nat.not_lt.mp hplaces))⟩

/-- The first digit of a decimal, the others after a point, and the exponent. -/
theorem isNumeral_scientific (d : Decimal) :
    ∃ body, d.scientific.toList = (if d.negative then ['-'] else []) ++ body ∧
      IsNumeral d.negative body ((nearest? d.negative d.digits d.exponent).map .float) := by
  have hall : IsDigits (Decimal.digitsOf d.digits) := isDigits_toDigits d.digits
  have hdigits := ofDigitChars_digitsOf d
  have hleading : d.leading = d.exponent + ((Decimal.digitsOf d.digits).length - 1 : Nat) := rfl
  obtain ⟨power, hpower, hread, hchars⟩ := exists_power d.leading
  have hpowerChars : ∀ c ∈ 'e' :: power, isNumeralChar c = true :=
    List.forall_mem_cons.mpr ⟨rfl, hchars⟩
  cases hds : Decimal.digitsOf d.digits with
  | nil => exact absurd hds hall.ne_nil
  | cons first rest =>
      rw [hds] at hall hdigits hleading
      have hfirst := hall.isDigit first List.mem_cons_self
      cases rest with
      | nil =>
          have htext : d.scientific.toList =
              (if d.negative then ['-'] else []) ++ first :: 'e' :: power := by
            rw [Decimal.scientific, hds, hpower, String.toList_append, String.toList_ofList,
              toList_sign]
            rfl
          refine ⟨_, htext, ⟨first, _, rfl, hfirst⟩, List.forall_mem_cons.mpr
            ⟨isNumeralChar_of_isDigit hfirst, hpowerChars⟩, ?_⟩
          have hsame : d.leading = d.exponent := by
            rw [hleading, List.length_singleton]
            omega
          have hread := numeral?_scientific d.negative hall hread
          rwa [hdigits, hsame] at hread
      | cons second rest =>
          have htext : d.scientific.toList =
              (if d.negative then ['-'] else []) ++ ([first] ++ '.' :: second :: rest ++
                'e' :: power) := by
            rw [Decimal.scientific, hds, hpower, String.toList_append, String.toList_ofList,
              toList_sign]
            rfl
          refine ⟨_, htext, ?_⟩
          have hwhole : IsDigits [first] := ⟨by simp, List.forall_mem_singleton.mpr hfirst⟩
          have hplaces : IsDigits (second :: rest) :=
            ⟨by simp, fun c hc => hall.isDigit c (List.mem_cons_of_mem first hc)⟩
          have hzeros : Nat.ofDigitChars 10 ([first] ++ second :: rest) 0 = d.digits * 10 ^ 0 := by
            rw [Nat.pow_zero, Nat.mul_one]
            exact hdigits
          refine isNumeral_fraction hwhole hplaces (.written hread) hpowerChars hzeros ?_
          rw [hleading, List.length_cons]
          omega

/-! ## Texts of numbers -/

/-- The text of a float is a numeral with a fraction or an exponent. It stands for the shortest
decimal of the float. -/
theorem isNumeral_float (x : Binary64) :
    ∃ negative body, x.toText.toList = (if negative then ['-'] else []) ++ body ∧
      IsNumeral negative body ((nearest? x.shortest.negative x.shortest.digits
        x.shortest.exponent).map .float) := by
  rw [Binary64.toText]
  split
  · next hzero =>
      have hshortest : x.shortest = ⟨x.negative, 0, 0⟩ := by
        rw [Binary64.shortest, if_pos (by simpa [Binary64.isZero] using hzero)]
      have hdigits : Nat.ofDigitChars 10 (['0'] ++ ['0']) 0 = 0 * 10 ^ 1 := by decide
      rw [hshortest]
      refine ⟨x.negative, ['0'] ++ '.' :: ['0'] ++ [], ?_,
        isNumeral_fraction isDigits_zero isDigits_zero .absent (by simp) hdigits rfl⟩
      cases x.negative with
      | true => rfl
      | false => rfl
  · split
    · exact ⟨_, isNumeral_positional x.shortest⟩
    · exact ⟨_, isNumeral_scientific x.shortest⟩

end DataExpression

/-- A float is re-read when its shortest decimal is rounded to it. -/
def Binary64.IsReread (x : Binary64) : Prop :=
  DataExpression.nearest? x.shortest.negative x.shortest.digits x.shortest.exponent = some x

instance (x : Binary64) : Decidable x.IsReread :=
  inferInstanceAs (Decidable (DataExpression.nearest? x.shortest.negative x.shortest.digits
    x.shortest.exponent = some x))

/-- Whether a number is re-read. Integers always are. -/
def JsonNumber.IsReread : JsonNumber → Prop
  | integer _ => True
  | float x => x.IsReread

instance : DecidablePred JsonNumber.IsReread
  | .integer _ => inferInstanceAs (Decidable True)
  | .float x => inferInstanceAs (Decidable x.IsReread)

namespace DataExpression

/-- The text of a number that is re-read is a numeral with the number as its value. -/
theorem isNumeral_toText {number : JsonNumber} (h : number.IsReread) :
    ∃ negative body, number.toText.toList = (if negative then ['-'] else []) ++ body ∧
      IsNumeral negative body (some number) := by
  cases number with
  | integer value =>
      cases value with
      | ofNat n =>
          have htext : (JsonNumber.integer (.ofNat n)).toText = n.repr := rfl
          refine ⟨false, Nat.toDigits 10 n, ?_, isNumeral_integer false n⟩
          rw [htext]
          simp
      | negSucc n =>
          have htext : (JsonNumber.integer (.negSucc n)).toText = "-" ++ (n + 1).repr := rfl
          refine ⟨true, Nat.toDigits 10 (n + 1), ?_, isNumeral_integer true (n + 1)⟩
          rw [htext]
          simp
  | float x =>
      obtain ⟨negative, body, htext, hbody⟩ := isNumeral_float x
      have hvalue : nearest? x.shortest.negative x.shortest.digits x.shortest.exponent = some x := h
      rw [hvalue] at hbody
      exact ⟨negative, body, htext, hbody⟩

end DataExpression

end LuauWorkspace
