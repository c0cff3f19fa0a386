import VaultBatch.Json.Reader
import VaultBatch.Proofs.Fault

/-!
# What readers yield

`Reader.Yields read P` says that whatever text a reader takes a value from, the value has the
property `P`. It is a statement about untrusted text: nothing is said of when reading succeeds.
The rules follow the combinators of readers; the one for the members of an object
(`yields_members`) carries an invariant of the members that have been read.
-/

namespace VaultBatch.Json

variable {α β : Type} {P : α → Prop} {Q : β → Prop}

/-- Every value that is read has the property. -/
def Reader.Yields (read : Reader α) (P : α → Prop) : Prop :=
  ∀ text value rest, read text = .ok (value, rest) → P value

namespace Reader

/-- Every value that is read has the property that all values have. -/
theorem yields_true (read : Reader α) : read.Yields fun _ => True :=
  fun _ _ _ _ => trivial

/-- A value that is given has the properties of it. -/
theorem yields_pure {value : α} (h : P value) : (pure value : Reader α).Yields P := by
  intro text result rest hread
  cases hread
  exact h

/-- A fault gives no value, and so none without the property. -/
theorem yields_fail (error : Error) : (Reader.fail error : Reader α).Yields P := by
  intro text value rest hread
  cases hread

/-- What two readers read has a property if the second one gives it to what the first one reads. -/
theorem yields_bind {read : Reader α} {next : α → Reader β} (hread : read.Yields P)
    (hnext : ∀ value, P value → (next value).Yields Q) : (read >>= next).Yields Q := by
  intro text result rest h
  obtain ⟨⟨value, middle⟩, hfirst, hrest⟩ := bind_eq_ok_iff.1 h
  exact hnext value (hread _ _ _ hfirst) _ _ _ hrest

/-- A reader that goes on whatever the first value is. -/
theorem yields_then {read : Reader α} {next : α → Reader β}
    (hnext : ∀ value, (next value).Yields Q) : (read >>= next).Yields Q :=
  yields_bind (yields_true read) fun value _ => hnext value

end Reader

open Reader

/-! ## Objects and sequences -/

/-- The value of a member has the property if what is read after a colon has. -/
theorem yields_member {read : Reader α} (h : read.Yields P) : (member read).Yields P :=
  yields_then fun _ => h

/-- A required member has the property if the one that has been read has. -/
theorem yields_required {slot : Option α} {name : String} (h : ∀ value ∈ slot, P value) :
    (required slot name).Yields P := by
  cases slot with
  | none => exact yields_fail _
  | some value => exact yields_pure (h value rfl)

/-- An element has the property if its reader gives it. -/
theorem yields_element {read : Reader α} {place : Nat} {wanted : Wanted} (h : read.Yields P) :
    (element read place wanted none).Yields P := by
  refine yields_then ?_
  intro goes
  cases goes with
  | true => exact h
  | false => exact yields_fail _

/-- Reading members ends with what has been read, or one step reads a member and the rest is read
from there. -/
theorem members_eq_ok {step : β → String → Reader β} {count : Nat} {first : Bool}
    {state result : β} {text rest : List Char}
    (h : members step (count + 1) first state text = .ok (result, rest)) :
    result = state ∨ ∃ name before next after, step state name before = .ok (next, after) ∧
      members step count false next after = .ok (result, rest) := by
  have hmember : ∀ inner, (do
      let name ← orMalformed (Text.read inner)
      let next ← step state (String.ofList name.1) name.2
      members step count false next.1 next.2) = .ok (result, rest) →
      ∃ name before next after, step state name before = .ok (next, after) ∧
        members step count false next after = .ok (result, rest) := by
    intro inner hread
    obtain ⟨name, -, hread⟩ := bind_eq_ok_iff.1 hread
    obtain ⟨next, hnext, hrest⟩ := bind_eq_ok_iff.1 hread
    exact ⟨_, _, _, _, hnext, hrest⟩
  -- the text goes on with the end of the object, a comma or, at the start, a name
  simp only [members] at h
  split at h
  · cases h
    exact .inl rfl
  · split at h
    · cases h
    · split at h
      · exact .inr (hmember _ h)
      · cases h
  · split at h
    · split at h
      · exact .inr (hmember _ h)
      · cases h
    · cases h

/-- An invariant that each member keeps holds when all members have been read. -/
theorem yields_members {step : β → String → Reader β}
    (hstep : ∀ state name, Q state → (step state name).Yields Q) {count : Nat} {first : Bool}
    {state : β} (hstate : Q state) : (members step count first state).Yields Q := by
  induction count generalizing first state with
  | zero => exact yields_fail _
  | succ count ih =>
      intro text result rest h
      rcases members_eq_ok h with rfl | ⟨name, before, next, after, hnext, hrest⟩
      · exact hstate
      · exact ih (hstep state name hstate _ _ _ hnext) _ _ _ hrest

/-- A record has a property if finishing its members and reading its places both yield it. -/
theorem yields_record {wanted : Wanted} {step : β → String → Reader β} {start : β}
    {finish : β → Reader α} {places : Reader α} (hstart : Q start)
    (hstep : ∀ state name, Q state → (step state name).Yields Q)
    (hfinish : ∀ state, Q state → (finish state).Yields P) (hplaces : places.Yields P) :
    (record wanted step start finish places).Yields P := by
  intro text value rest h
  unfold record at h
  split at h
  · next inner _ =>
    exact yields_bind (yields_members hstep hstart) hfinish inner value rest h
  · next inner _ =>
    have hsequence : (do
        let value ← places
        sequenceEnd
        return value : Reader α).Yields P :=
      yields_bind hplaces fun _ hvalue => yields_then fun _ => yields_pure hvalue
    exact hsequence inner value rest h
  · obtain ⟨found, -, hthrow⟩ := bind_eq_ok_iff.1 h
    cases hthrow

/-- What is read from a whole text has the property. -/
theorem of_parse {read : Reader α} {text : String} {value : α} (hread : read.Yields P)
    (h : parse read text = .ok value) : P value := by
  obtain ⟨⟨result, rest⟩, hresult, hend⟩ := bind_eq_ok_iff.1 h
  simp only at hend
  split at hend
  · cases hend
    exact hread _ _ _ hresult
  · cases hend

end VaultBatch.Json
