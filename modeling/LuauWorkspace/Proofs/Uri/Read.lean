import LuauWorkspace.Proofs.Uri.Key
import LuauWorkspace.Uri.Parser
import Mathlib.Data.List.TakeDrop
import Mathlib.Data.List.TakeWhile

/-! # Uris that have been read -/

namespace LuauWorkspace

/-! ## Numeric hosts -/

namespace Address

theorem digitChar_ne_slash {n : Nat} (h : n < 16) : n.digitChar ≠ '/' := by
  revert n
  decide

theorem slash_not_mem_toDigits {base : Nat} (hpos : 0 < base) (hbase : base ≤ 16) (n : Nat) :
    '/' ∉ Nat.toDigits base n := by
  have hcore : ∀ (fuel n : Nat) (done : List Char), '/' ∉ done →
      '/' ∉ Nat.toDigitsCore base fuel n done := by
    intro fuel
    induction fuel with
    | zero => intro n done h; exact h
    | succ fuel ih =>
        intro n done h
        have hdigit : n % base < 16 := lt_of_lt_of_le (Nat.mod_lt n hpos) hbase
        have hcons : '/' ∉ (n % base).digitChar :: done := by
          intro hmem
          rcases List.mem_cons.mp hmem with heq | hmem
          · exact digitChar_ne_slash hdigit heq.symm
          · exact h hmem
        rw [Nat.toDigitsCore]
        split
        · exact hcons
        · exact ih _ _ hcons
  exact hcore _ _ _ (by simp)

theorem slash_not_mem_joinWith {separator : List Char} {pieces : List (List Char)}
    (hsep : '/' ∉ separator) (h : ∀ piece ∈ pieces, '/' ∉ piece) :
    '/' ∉ Text.joinWith separator pieces := by
  induction pieces with
  | nil => simp [Text.joinWith]
  | cons piece pieces ih =>
      have hpiece := h piece List.mem_cons_self
      cases pieces with
      | nil => exact hpiece
      | cons next pieces =>
          have hrest := ih fun q hq => h q (List.mem_cons_of_mem piece hq)
          rw [Text.joinWith]
          · simp only [List.mem_append, not_or]
            exact ⟨⟨hpiece, hsep⟩, hrest⟩
          · simp

theorem slash_not_mem_numbers {base : Nat} (hpos : 0 < base) (hbase : base ≤ 16)
    {separator : List Char} (hsep : '/' ∉ separator) (numbers : List Nat) :
    '/' ∉ Text.joinWith separator (numbers.map (Nat.toDigits base)) := by
  apply slash_not_mem_joinWith hsep
  intro piece hpiece
  obtain ⟨n, _, rfl⟩ := List.mem_map.mp hpiece
  exact slash_not_mem_toDigits hpos hbase n

theorem slash_not_mem_showGroups (groups : List Nat) : '/' ∉ showGroups groups := by
  have hjoin : ∀ numbers : List Nat,
      '/' ∉ Text.joinWith [':'] (numbers.map (Nat.toDigits 16)) :=
    slash_not_mem_numbers (by decide) (by decide) (by decide)
  rw [showGroups]
  split
  · exact hjoin groups
  · simp only [List.mem_append, not_or]
    exact ⟨⟨hjoin _, by decide⟩, hjoin _⟩

theorem slash_not_mem_ofParts? {host address : List Char} (h : ofParts? host = some address) :
    '/' ∉ address := by
  simp only [ofParts?, Option.bind_eq_bind, Option.bind_eq_some_iff,
    Option.ite_none_left_eq_some, Option.pure_def, Option.some.injEq] at h
  obtain ⟨_, _, _, _, _, rfl⟩ := h
  exact slash_not_mem_numbers (by decide) (by decide) (by decide) _

end Address

namespace Uri

/-! ## Parts -/

theorem colon_not_mem_scheme {text rest : List Char} {scheme : String}
    (h : splitScheme? text = some (scheme, rest)) : ':' ∉ scheme.toList := by
  have hlower : ∀ c : Char, isSchemeChar c = true → c.toLower ≠ ':' := by
    intro c hc heq
    by_cases hupper : c.val ≥ 'A'.val ∧ c.val ≤ 'Z'.val
    · have hlow : c.toLower = _ := dif_pos hupper
      rw [hlow] at heq
      have hval := congrArg Char.val heq
      have hnat := congrArg UInt32.toNat hval
      have hcolon : (':' : Char).val.toNat = 58 := rfl
      rw [hcolon] at hnat
      simp only [UInt32.toNat_add] at hnat
      have hle := UInt32.le_iff_toNat_le.mp hupper.1
      have hge := UInt32.le_iff_toNat_le.mp hupper.2
      have h65 : (UInt32.toNat 65) = 65 := rfl
      simp at hnat hle hge
      omega
    · have hsame : c.toLower = c := dif_neg hupper
      rw [hsame] at heq
      rw [heq] at hc
      exact absurd hc (by decide)
  rw [splitScheme?] at h
  split at h
  · next first front after heq =>
      rw [Option.ite_none_right_eq_some] at h
      obtain ⟨_, h⟩ := h
      obtain ⟨rfl, _⟩ := Prod.mk.inj (Option.some.inj h)
      rw [String.toList_ofList]
      intro hmem
      obtain ⟨c, hc, hcolon⟩ := List.mem_map.mp hmem
      have htake : first :: front = text.takeWhile isSchemeChar := by
        have hspan := congrArg Prod.fst heq
        rw [List.span_eq_takeWhile_dropWhile] at hspan
        exact hspan.symm
      exact hlower c (List.mem_takeWhile_imp (htake ▸ hc)) hcolon
  · cases h

theorem slash_not_mem_parseHost {host read : List Char} (h : parseHost host = .ok read) :
    '/' ∉ read := by
  rw [parseHost.eq_def] at h
  split at h
  · split at h
    · split at h
      · next groups _ =>
          obtain rfl := Except.ok.inj h
          intro hmem
          rcases List.mem_append.mp hmem with hmem | hmem
          · rcases List.mem_cons.mp hmem with heq | hmem
            · exact absurd heq (by decide)
            · exact Address.slash_not_mem_showGroups groups hmem
          · exact absurd hmem (by decide)
      · cases h
    · cases h
  · split at h
    · cases h
    · next name _ =>
        simp only at h
        split at h
        · cases h
        · next hforbidden =>
            have hdomain : '/' ∉ Domain.encode name.toList := by
              intro hmem
              exact hforbidden (List.any_eq_true.mpr ⟨'/', hmem, by decide⟩)
            split at h
            · cases h
            · split at h
              · split at h
                · next address haddress =>
                    obtain rfl := Except.ok.inj h
                    exact Address.slash_not_mem_ofParts? haddress
                · cases h
              · obtain rfl := Except.ok.inj h
                exact hdomain

theorem slash_not_mem_parseFile {text host path : List Char}
    (h : parseFile text = .ok (host, path)) : '/' ∉ host := by
  have hnil : ∀ {p : List Char}, Except.ok (ε := UriError) ([], p) = .ok (host, path) →
      '/' ∉ host := by
    intro p heq
    obtain ⟨rfl, _⟩ := Prod.mk.inj (Except.ok.inj heq)
    simp
  rw [parseFile.eq_def] at h
  split at h
  · split at h
    · simp only at h
      split at h
      · exact hnil h
      · split at h
        · exact hnil h
        · simp only [bind, Except.bind] at h
          split at h
          · cases h
          · next read hread =>
              obtain ⟨hhost, _⟩ := Prod.mk.inj (Except.ok.inj h)
              rw [← hhost]
              split
              · simp
              · exact slash_not_mem_parseHost hread
    · exact hnil h
  · exact hnil h

/-- Every uri that has been read is well formed. -/
theorem wellFormed_of_read {text : String} {uri : Uri} (h : read text = .ok uri) :
    uri.WellFormed := by
  simp only [read, bind, Except.bind] at h
  split at h
  · next scheme rest hsplit =>
      split at h
      · cases h
      · next parts hparts =>
          obtain ⟨authority, path⟩ := parts
          have huri := Except.ok.inj h
          refine ⟨?_, ?_⟩
          · rw [← huri]
            exact colon_not_mem_scheme hsplit
          · intro hscheme
            rw [← huri] at hscheme
            simp only at hscheme
            subst hscheme
            simp only [parseAfterScheme, if_pos, bind, Except.bind] at hparts
            split at hparts
            · cases hparts
            · next found hfound =>
                obtain ⟨host, rest⟩ := found
                obtain ⟨rfl, _⟩ := Prod.mk.inj (Except.ok.inj hparts)
                refine ⟨String.ofList host, by rw [← huri]; rfl, ?_⟩
                rw [String.toList_ofList]
                exact slash_not_mem_parseFile hfound
  · cases h

/-- Uris come from texts and from paths. -/
inductive IsValid : Uri → Prop where
  | read {text : String} {uri : Uri} (h : Uri.read text = .ok uri) : IsValid uri
  | ofPath {path : Path} {uri : Uri} (h : Uri.ofPath? path = some uri) : IsValid uri

theorem IsValid.wellFormed {uri : Uri} (h : uri.IsValid) : uri.WellFormed := by
  cases h with
  | read h => exact wellFormed_of_read h
  | ofPath h => exact wellFormed_of_ofPath? h

end Uri

end LuauWorkspace
