import LuauWorkspace.Json.Typed
import LuauWorkspace.Proofs.Dictionary

/-! # What readers ensure

A reader ensures a property when all values that it reads have it. What is read without an entry of
its own, such as punctuation, needs no property. -/

namespace LuauWorkspace.JsonReader

variable {α β σ : Type}

/-- Every value that a reader reads has the property `P`. -/
def Ensures (reader : JsonReader α) (P : α → Prop) : Prop :=
  ∀ text value rest, StateT.run reader text = .ok (value, rest) → P value

/-! ## Composing readers -/

theorem ensures_pure {P : α → Prop} {value : α} (h : P value) : Ensures (pure value) P := by
  intro text found rest hfound
  obtain ⟨rfl, -⟩ := Prod.mk.inj (Except.ok.inj hfound)
  exact h

theorem ensures_throw (P : α → Prop) (cause : JsonError) : Ensures (throw cause) P := by
  intro text found rest hfound
  cases hfound

theorem ensures_bind {P : α → Prop} {Q : β → Prop} {reader : JsonReader α}
    {next : α → JsonReader β} (h : Ensures reader P)
    (hnext : ∀ value, P value → Ensures (next value) Q) : Ensures (reader >>= next) Q := by
  intro text found rest hfound
  rw [StateT.run_bind] at hfound
  cases hfirst : StateT.run reader text with
  | error cause =>
      rw [hfirst] at hfound
      cases hfound
  | ok result =>
      obtain ⟨value, after⟩ := result
      rw [hfirst] at hfound
      exact hnext value (h text value after hfirst) after found rest hfound

theorem ensures_true (reader : JsonReader α) : Ensures reader fun _ => True :=
  fun _ _ _ _ => trivial

/-- A reader that goes on the same whatever has been read. -/
theorem ensures_next {Q : β → Prop} {reader : JsonReader α} {next : α → JsonReader β}
    (hnext : ∀ value, Ensures (next value) Q) : Ensures (reader >>= next) Q :=
  ensures_bind (ensures_true reader) fun value _ => hnext value

theorem ensures_run {P : α → Prop} {reader : JsonReader α} (h : Ensures reader P) {text : String}
    {value : α} (hvalue : run reader text = .ok value) : P value := by
  rw [run] at hvalue
  cases hresult : StateT.run reader text.toList with
  | error cause =>
      rw [hresult] at hvalue
      cases hvalue
  | ok result =>
      obtain ⟨found, rest⟩ := result
      rw [hresult] at hvalue
      simp only [bind, Except.bind] at hvalue
      split at hvalue
      · obtain rfl := Except.ok.inj hvalue
        exact h _ _ _ hresult
      · cases hvalue

theorem ensures_mismatch (P : α → Prop) (wanted : String) :
    Ensures (mismatch wanted : JsonReader α) P := by
  have hfail : ∀ reader : JsonReader JsonFound,
      Ensures (do throw (.wrongKind (← reader) wanted)) P :=
    fun reader => ensures_next fun found => ensures_throw P _
  rw [mismatch]
  refine ensures_next fun token => ?_
  split
  · exact hfail _
  · exact ensures_next fun _ => ensures_next fun _ => hfail _
  · exact ensures_next fun _ => ensures_next fun _ => hfail _
  · exact ensures_next fun _ => ensures_next fun _ => hfail _
  · exact hfail _
  · exact hfail _
  · exact hfail _
  · split
    · exact hfail _
    · exact hfail _

/-! ## Objects -/

/-- What holds of a state and is kept by every member holds of the state in the end. -/
theorem ensures_members {P : σ → Prop} {member : σ → String → JsonReader σ}
    (hmember : ∀ state name, P state → Ensures (member state name) P) (bound : Nat) :
    ∀ {state : σ} {first : Bool}, P state → Ensures (members member state first bound) P := by
  induction bound with
  | zero => exact fun _ => ensures_throw P _
  | succ bound ih =>
      intro state first hstate
      rw [members]
      refine ensures_next fun more => ?_
      split
      · refine ensures_next fun name => ?_
        exact ensures_bind (hmember state name hstate) fun next hnext => ih hnext
      · exact ensures_pure hstate

theorem ensures_object {P : σ → Prop} {member : σ → String → JsonReader σ} {start : σ}
    (hstart : P start) (hmember : ∀ state name, P state → Ensures (member state name) P) :
    Ensures (object member start) P := by
  rw [object]
  refine ensures_next fun _ => ensures_next fun text => ?_
  refine ensures_bind (ensures_members hmember _ hstart) fun state hstate => ?_
  exact ensures_next fun _ => ensures_pure hstate

/-- Dictionaries are read sorted. -/
theorem ensures_dictionaryOf (depth : Nat) (entry : JsonReader α) :
    Ensures (dictionaryOf depth entry) Dictionary.IsSorted := by
  rw [dictionaryOf.eq_def]
  refine ensures_next fun token => ?_
  split
  · cases depth with
    | zero => exact ensures_throw _ _
    | succ depth =>
        refine ensures_object Dictionary.isSorted_nil fun all name hall => ?_
        refine ensures_next fun _ => ensures_next fun value => ?_
        exact ensures_pure (Dictionary.isSorted_insert hall name value)
  · exact ensures_mismatch _ _

/-! ## Fields -/

theorem ensures_optional {P : α → Prop} {present : JsonReader α} (h : Ensures present P) :
    Ensures (optional present) fun field => ∀ value, field = some value → P value := by
  rw [optional]
  refine ensures_next fun token => ?_
  split
  · refine ensures_next fun _ => ensures_next fun _ => ensures_pure ?_
    rintro value ⟨⟩
  · refine ensures_bind h fun found hfound => ensures_pure ?_
    rintro value ⟨⟩
    exact hfound

theorem ensures_once {P : α → Prop} (name : String) (earlier : Option α)
    {field : JsonReader α} (h : Ensures field P) :
    Ensures (once name earlier field) fun field => ∀ value, field = some value → P value := by
  have hread : Ensures (do colon; return some (← field))
      fun field : Option α => ∀ value, field = some value → P value := by
    refine ensures_next fun _ => ensures_bind h fun found hfound => ensures_pure ?_
    rintro value ⟨⟩
    exact hfound
  rw [once]
  split
  · exact ensures_next fun _ => hread
  · exact hread

theorem ensures_itemOr {P : α → Prop} {absent item : JsonReader α} (habsent : Ensures absent P)
    (hitem : Ensures item P) (first : Bool) : Ensures (itemOr absent first item) P := by
  rw [itemOr]
  refine ensures_next fun more => ?_
  split
  · exact hitem
  · exact habsent

end LuauWorkspace.JsonReader
