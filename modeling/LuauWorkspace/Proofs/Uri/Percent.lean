import LuauWorkspace.Uri.Percent
import Mathlib.Data.List.Basic

/-! # Decoding what has been encoded

A text whose percent signs are encoded is decoded to its own bytes. -/

namespace LuauWorkspace.Percent

/-! ## Bytes -/

theorem hexValue?_upperHex {n : Nat} (h : n < 16) : hexValue? (upperHex n) = some n := by
  revert n
  decide

theorem decode_cons_of_ne {c : Char} (h : c ≠ '%') (rest : List Char) :
    decode (c :: rest) = String.utf8EncodeChar c ++ decode rest := by
  rw [decode]
  split
  · next heq => simp [h] at heq
  · rfl

theorem decode_percent {rest after : List Char} {b : UInt8}
    (h : decodeByte? rest = some (b, after)) : decode ('%' :: rest) = b :: decode after := by
  rw [decode]
  split
  · next heq =>
      rw [if_pos rfl, h] at heq
      obtain ⟨rfl, rfl⟩ := Prod.mk.inj (Option.some.inj heq)
      rfl
  · next heq => simp [h] at heq

theorem decode_encodeByte (b : UInt8) (rest : List Char) :
    decode (encodeByte b ++ rest) = b :: decode rest := by
  have hb : b.toNat < 256 := b.toNat_lt
  have hhigh : hexValue? (upperHex (b.toNat / 16)) = some (b.toNat / 16) :=
    hexValue?_upperHex (by omega)
  have hlow : hexValue? (upperHex (b.toNat % 16)) = some (b.toNat % 16) :=
    hexValue?_upperHex (by omega)
  have hbyte : UInt8.ofNat (16 * (b.toNat / 16) + b.toNat % 16) = b := by
    rw [Nat.div_add_mod]
    exact UInt8.ofNat_toNat
  rw [encodeByte, List.cons_append, List.cons_append, List.cons_append, List.nil_append]
  apply decode_percent
  simp only [decodeByte?, hhigh, hlow, Option.bind_eq_bind, Option.bind_some, Option.pure_def,
    hbyte]

theorem decode_flatMap_encodeByte (bytes : List UInt8) (rest : List Char) :
    decode (bytes.flatMap encodeByte ++ rest) = bytes ++ decode rest := by
  induction bytes with
  | nil => rfl
  | cons b bytes ih =>
      rw [List.flatMap_cons, List.append_assoc, decode_encodeByte, ih, List.cons_append]

/-! ## Texts -/

/-- An encoded text is decoded to the bytes of the text. -/
theorem decode_encode {reserved : Char → Bool} (hpercent : reserved '%' = true)
    (text rest : List Char) :
    decode (encode reserved text ++ rest) = text.flatMap String.utf8EncodeChar ++ decode rest := by
  induction text with
  | nil => rfl
  | cons c text ih =>
      rw [encode, List.flatMap_cons, List.append_assoc, ← encode, List.flatMap_cons,
        List.append_assoc]
      by_cases hc : (reserved c || decide (0x7F ≤ c.toNat)) = true
      · rw [if_pos hc, decode_flatMap_encodeByte, ih]
      · have hne : c ≠ '%' := by
          rintro rfl
          simp [hpercent] at hc
        rw [if_neg hc, List.singleton_append, decode_cons_of_ne hne, ih]

theorem decode_append_of_forall_ne {text : List Char} (h : ∀ c ∈ text, c ≠ '%')
    (rest : List Char) :
    decode (text ++ rest) = text.flatMap String.utf8EncodeChar ++ decode rest := by
  induction text with
  | nil => rfl
  | cons c text ih =>
      rw [List.cons_append, decode_cons_of_ne (h c List.mem_cons_self),
        ih (fun d hd => h d (List.mem_cons_of_mem c hd)), List.flatMap_cons, List.append_assoc]

/-- Bytes that spell a text are read as this text. -/
theorem decodeText?_of_decode {text spelled : List Char}
    (h : decode text = spelled.flatMap String.utf8EncodeChar) :
    decodeText? text = some (String.ofList spelled) := by
  have hbytes : (⟨(decode text).toArray⟩ : ByteArray) = spelled.utf8Encode := by
    rw [List.utf8Encode, h]
    apply ByteArray.ext
    rw [List.data_toByteArray]
  rw [decodeText?, hbytes, String.fromUTF8?, dif_pos ByteArray.isValidUTF8_utf8Encode]
  rfl

/-- A text is read from its own bytes only. -/
theorem decode_of_decodeText? {text : List Char} {spelled : String}
    (h : decodeText? text = some spelled) :
    decode text = spelled.toList.flatMap String.utf8EncodeChar := by
  rw [decodeText?, String.fromUTF8?, Option.dite_none_right_eq_some] at h
  obtain ⟨hvalid, hspelled⟩ := h
  have hbytes : (⟨(decode text).toArray⟩ : ByteArray) =
      (spelled.toList.flatMap String.utf8EncodeChar).toByteArray := by
    rw [← List.utf8Encode, String.utf8Encode_toList, ← Option.some.inj hspelled]
    rfl
  have hdata := congrArg (fun bytes : ByteArray => bytes.data.toList) hbytes
  simpa [List.data_toByteArray] using hdata

/-! ## Characters of encoded texts -/

theorem upperHex_isAlphanum {n : Nat} (h : n < 16) : (upperHex n).isAlphanum = true := by
  revert n
  decide

/-- What an encoding is made of: characters that need none, percent signs and digits. -/
theorem mem_encode {reserved : Char → Bool} {text : List Char} {c : Char}
    (h : c ∈ encode reserved text) :
    (reserved c = false ∧ c ∈ text) ∨ c = '%' ∨ c.isAlphanum = true := by
  obtain ⟨d, hd, hc⟩ := List.mem_flatMap.mp h
  by_cases hr : (reserved d || decide (0x7F ≤ d.toNat)) = true
  · rw [if_pos hr] at hc
    obtain ⟨b, _, hb⟩ := List.mem_flatMap.mp hc
    have hlt : b.toNat < 256 := b.toNat_lt
    rcases List.mem_cons.mp hb with rfl | hb
    · exact .inr (.inl rfl)
    · rcases List.mem_cons.mp hb with rfl | hb
      · exact .inr (.inr (upperHex_isAlphanum (by omega)))
      · obtain rfl := List.mem_singleton.mp hb
        exact .inr (.inr (upperHex_isAlphanum (by omega)))
  · rw [if_neg hr] at hc
    obtain rfl := List.mem_singleton.mp hc
    simp only [Bool.not_eq_true, Bool.or_eq_false_iff] at hr
    exact .inl ⟨hr.1, hd⟩

/-- A character that is reserved in a place does not occur in what is encoded for it. -/
theorem not_mem_encode {reserved : Char → Bool} {c : Char} (hreserved : reserved c = true)
    (hpercent : c ≠ '%') (halnum : c.isAlphanum = false) (text : List Char) :
    c ∉ encode reserved text := by
  intro hmem
  rcases mem_encode hmem with ⟨hfree, _⟩ | heq | hdigit
  · simp [hreserved] at hfree
  · exact hpercent heq
  · simp [halnum] at hdigit

theorem encode_ne_nil (reserved : Char → Bool) {text : List Char} (h : text ≠ []) :
    encode reserved text ≠ [] := by
  cases text with
  | nil => exact absurd rfl h
  | cons c rest =>
      rw [encode, List.flatMap_cons]
      by_cases hc : (reserved c || decide (0x7F ≤ c.toNat)) = true
      · have hbytes : String.utf8EncodeChar c ≠ [] := by
          intro hnil
          have hlength := String.length_utf8EncodeChar c
          rw [hnil] at hlength
          exact absurd hlength.symm (Nat.ne_of_gt c.utf8Size_pos)
        obtain ⟨b, bytes, hcons⟩ := List.exists_cons_of_ne_nil hbytes
        rw [if_pos hc, hcons]
        simp [encodeByte]
      · rw [if_neg hc]
        exact List.cons_ne_nil _ _

end LuauWorkspace.Percent
