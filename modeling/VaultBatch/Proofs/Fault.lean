import Mathlib.Data.List.Forall2

/-!
# The first fault

Checks run in order and the first one that fails decides. `unlessFault` says so for one value, and
`mapM_unlessFault` carries it over a list: all values, or else the first fault of the list.
`mapM_eq_ok_iff` is the same fact for checks that are not given by their faults.
-/

namespace VaultBatch

variable {ε ε' α β : Type}

/-- A value, unless there is a fault. -/
def unlessFault (fault : Option ε) (value : α) : Except ε α :=
  match fault with
  | some error => .error error
  | none => .ok value

/-- There is a value exactly if there is no fault. -/
theorem unlessFault_eq_ok_iff {fault : Option ε} {value result : α} :
    unlessFault fault value = .ok result ↔ fault = none ∧ value = result := by
  cases fault <;> simp [unlessFault]

/-- The fault is what is reported. -/
theorem unlessFault_eq_error_iff {fault : Option ε} {value : α} {error : ε} :
    unlessFault fault value = .error error ↔ fault = some error := by
  cases fault <;> simp [unlessFault]

/-! ## Steps that may fail -/

/-- Two steps succeed exactly if the first one does and the second one does on its result. -/
theorem bind_eq_ok_iff {x : Except ε α} {f : α → Except ε β} {result : β} :
    x >>= f = .ok result ↔ ∃ value, x = .ok value ∧ f value = .ok result := by
  cases x <;> simp [bind, Except.bind]

/-- Renaming faults leaves results alone. -/
theorem mapError_eq_ok_iff {f : ε → ε'} {x : Except ε α} {result : α} :
    x.mapError f = .ok result ↔ x = .ok result := by
  cases x <;> simp [Except.mapError]

/-- Two steps fail if the first one does, or else the second one on the result of the first. -/
theorem bind_eq_error_iff {x : Except ε α} {f : α → Except ε β} {error : ε} :
    x >>= f = .error error ↔ x = .error error ∨ ∃ value, x = .ok value ∧ f value = .error error := by
  cases x <;> simp [bind, Except.bind]

/-- A renamed fault is the new name of a fault. -/
theorem mapError_eq_error_iff {f : ε → ε'} {x : Except ε α} {error : ε'} :
    x.mapError f = .error error ↔ ∃ cause, x = .error cause ∧ f cause = error := by
  cases x <;> simp [Except.mapError]

/-- With one cause to fail, there is a result unless the cause is there. -/
theorem exists_ok_iff {x : Except ε α} {fails : Prop} {cause : ε}
    (h : ∀ error, x = .error error ↔ fails ∧ error = cause) :
    (∃ result, x = .ok result) ↔ ¬ fails := by
  constructor
  · rintro ⟨result, hresult⟩ hfails
    rw [(h cause).2 ⟨hfails, rfl⟩] at hresult
    cases hresult
  · intro hfails
    cases x with
    | ok result => exact ⟨result, rfl⟩
    | error error => exact absurd ((h error).1 rfl).1 hfails

/-- With one cause to fail, there is a fault exactly if there is no result. -/
theorem eq_error_iff_of_cause {x : Except ε α} {cause error : ε}
    (h : ∀ other, x = .error other → other = cause) :
    x = .error error ↔ (∀ result, x ≠ .ok result) ∧ error = cause := by
  cases x with
  | ok result => simp
  | error other => simp [h other rfl, eq_comm]

/-- The faults of two steps are renamed in each of them. -/
theorem mapError_bind {rename : ε → ε'} (x : Except ε α) (f : α → Except ε β) :
    (x >>= f).mapError rename = x.mapError rename >>= fun value => (f value).mapError rename := by
  cases x <;> rfl

/-- Renaming twice is renaming once by both names. -/
theorem mapError_mapError {ε'' : Type} {f : ε → ε'} {g : ε' → ε''} (x : Except ε α) :
    (x.mapError f).mapError g = x.mapError fun error => g (f error) := by
  cases x <;> rfl

/-- Without the fault, renaming does nothing. -/
@[simp] theorem toOption_mapError {f : ε → ε'} (x : Except ε α) :
    (x.mapError f).toOption = x.toOption := by
  cases x <;> rfl

/-- Without the fault, there is a value exactly if it is the result. -/
@[simp] theorem toOption_eq_some_iff {x : Except ε α} {result : α} :
    x.toOption = some result ↔ x = .ok result := by
  cases x <;> simp [Except.toOption]

/-! ## Lists -/

/-- Steps that agree on the values of a list agree on the list. -/
theorem mapM_congr {f g : α → Except ε β} {values : List α}
    (h : ∀ value ∈ values, f value = g value) : values.mapM f = values.mapM g := by
  induction values with
  | nil => rfl
  | cons value values ih =>
      rw [List.mapM_cons, List.mapM_cons, h value (by simp),
        ih fun other hother => h other (by simp [hother])]

/-- A list is read exactly if each of its values is. -/
theorem mapM_eq_ok_iff {f : α → Except ε β} {values : List α} {results : List β} :
    values.mapM f = .ok results ↔
      List.Forall₂ (fun value result => f value = .ok result) values results := by
  induction values generalizing results with
  | nil => cases results <;> simp [pure, Except.pure]
  | cons value values ih =>
      simp only [List.mapM_cons, bind_eq_ok_iff, ih, List.forall₂_cons_left_iff]
      constructor
      · intro h
        obtain ⟨result, hvalue, rest, hrest, h⟩ := h
        cases h
        exact ⟨result, rest, hvalue, hrest, rfl⟩
      · intro h
        obtain ⟨result, rest, hvalue, hrest, rfl⟩ := h
        exact ⟨result, hvalue, rest, hrest, rfl⟩

/-- A check that goes through a list place by place reports the first value that does not pass, at
its place. -/
theorem check_eq_error_iff {check : Nat → List α → Except ε Unit} {step : Nat → α → Except ε Unit}
    {passes : α → Prop} (hnil : ∀ place, check place [] = .ok ())
    (hcons : ∀ place value rest,
      check place (value :: rest) = step place value >>= fun _ => check (place + 1) rest)
    (hpasses : ∀ place value, step place value = .ok () ↔ passes value)
    {place : Nat} {values : List α} {error : ε} :
    check place values = .error error ↔
      ∃ before value after, values = before ++ value :: after ∧
        (∀ other ∈ before, passes other) ∧ step (place + before.length) value = .error error := by
  induction values generalizing place with
  | nil => simp [hnil]
  | cons first rest ih =>
      simp only [hcons, bind_eq_error_iff, ih]
      constructor
      · intro h
        rcases h with hfirst | ⟨_, hfirst, before, value, after, rfl, hbefore, hvalue⟩
        · exact ⟨[], first, rest, rfl, by simp, hfirst⟩
        · refine ⟨first :: before, value, after, rfl, ?_, ?_⟩
          · exact List.forall_mem_cons.2 ⟨(hpasses place first).1 hfirst, hbefore⟩
          · rwa [List.length_cons, ← Nat.add_assoc, Nat.add_right_comm]
      · intro h
        obtain ⟨before, value, after, heq, hbefore, hvalue⟩ := h
        cases before with
        | nil =>
            cases heq
            exact .inl hvalue
        | cons other before =>
            cases heq
            obtain ⟨hfirst, hbefore⟩ := List.forall_mem_cons.1 hbefore
            rw [List.length_cons, ← Nat.add_assoc, Nat.add_right_comm] at hvalue
            exact .inr ⟨(), (hpasses place first).2 hfirst, before, value, after, rfl, hbefore,
              hvalue⟩

/-- A list is refused for the first of its values that is. -/
theorem mapM_eq_error_iff {f : α → Except ε β} {values : List α} {error : ε} :
    values.mapM f = .error error ↔
      ∃ before value after, values = before ++ value :: after ∧
        (∀ other ∈ before, ∃ result, f other = .ok result) ∧ f value = .error error := by
  have hforget : ∀ {γ : Type} (x : Except ε γ),
      (x >>= fun _ => .ok ()) = .error error ↔ x = .error error := by
    intro γ x
    cases x <;> simp [bind, Except.bind]
  have hcons : ∀ (place : Nat) (value : α) (rest : List α),
      ((value :: rest).mapM f >>= fun _ => .ok ()) =
        (f value >>= fun _ => .ok ()) >>= fun _ => rest.mapM f >>= fun _ => .ok () := by
    intro _ value rest
    rw [List.mapM_cons]
    cases f value with
    | error => rfl
    | ok => cases rest.mapM f <;> rfl
  have hpasses : ∀ (place : Nat) (value : α),
      (f value >>= fun _ => .ok ()) = .ok () ↔ ∃ result, f value = .ok result := by
    intro _ value
    cases f value <;> simp [bind, Except.bind]
  -- as a check, reading forgets its results and does not look at places
  have hcheck := @check_eq_error_iff ε α (fun _ values => values.mapM f >>= fun _ => .ok ())
    (fun _ value => f value >>= fun _ => .ok ()) (fun value => ∃ result, f value = .ok result)
    (fun _ => rfl) hcons hpasses 0 values error
  simpa only [hforget] using hcheck

/-- There are results for a list exactly if there is one for each of its values. -/
theorem exists_mapM_eq_ok_iff {f : α → Except ε β} {values : List α} :
    (∃ results, values.mapM f = .ok results) ↔
      ∀ value ∈ values, ∃ result, f value = .ok result := by
  constructor
  · intro h value hvalue
    obtain ⟨results, hresults⟩ := h
    obtain ⟨before, after, rfl⟩ := List.append_of_mem hvalue
    simp only [List.mapM_append, List.mapM_cons, bind_eq_ok_iff] at hresults
    obtain ⟨-, -, -, ⟨result, hresult, -⟩, -⟩ := hresults
    exact ⟨result, hresult⟩
  · intro h
    cases hresults : values.mapM f with
    | ok results => exact ⟨results, rfl⟩
    | error error =>
        obtain ⟨before, value, after, rfl, -, hvalue⟩ := mapM_eq_error_iff.1 hresults
        obtain ⟨result, hresult⟩ := h value (by simp)
        rw [hvalue] at hresult
        cases hresult

/-- The results around one of them are those of the values around its value. -/
theorem mapM_eq_ok_append_cons_iff {f : α → Except ε β} {values : List α} {before after : List β}
    {result : β} :
    values.mapM f = .ok (before ++ result :: after) ↔
      ∃ first value rest, values = first ++ value :: rest ∧ first.mapM f = .ok before ∧
        f value = .ok result ∧ rest.mapM f = .ok after := by
  constructor
  · intro h
    have hall := mapM_eq_ok_iff.1 h
    have hfirst := List.forall₂_take_append _ _ _ hall
    obtain ⟨value, rest, hvalue, hrest, hdrop⟩ :=
      List.forall₂_cons_right_iff.1 (List.forall₂_drop_append _ _ _ hall)
    refine ⟨values.take before.length, value, rest, ?_, mapM_eq_ok_iff.2 hfirst, hvalue,
      mapM_eq_ok_iff.2 hrest⟩
    rw [← hdrop, List.take_append_drop]
  · intro h
    obtain ⟨first, value, rest, rfl, hfirst, hvalue, hrest⟩ := h
    rw [List.mapM_append, List.mapM_cons, hfirst, hvalue, hrest]
    rfl

/-- Renaming the fault of a list is renaming the faults of its values. -/
theorem mapM_mapError {rename : ε → ε'} {f : α → Except ε β} (values : List α) :
    (values.mapM fun value => (f value).mapError rename) = (values.mapM f).mapError rename := by
  induction values with
  | nil => rfl
  | cons value values ih =>
      rw [List.mapM_cons, List.mapM_cons, ih]
      cases f value with
      | error => rfl
      | ok => cases values.mapM f <;> rfl

/-- A list of which every value is read is read as a whole. -/
theorem mapM_eq_ok_of_forall {f : α → Except ε β} {g : α → β} {values : List α}
    (h : ∀ value ∈ values, f value = .ok (g value)) : values.mapM f = .ok (values.map g) := by
  rw [mapM_congr h]
  exact List.mapM_pure

/-- If reading undoes writing and nothing else is read, a list is read exactly from what its values
are written as. -/
theorem mapM_eq_ok_iff_eq_map {read : α → Except ε β} {write : β → α}
    (h : ∀ value result, read value = .ok result ↔ value = write result) {values : List α}
    {results : List β} : values.mapM read = .ok results ↔ values = results.map write := by
  rw [mapM_eq_ok_iff, ← List.forall₂_eq_eq_eq, List.forall₂_map_right_iff]
  simp only [h]

/-- What is written value by value and read back value by value is the list again. -/
theorem mapM_map_eq_ok {write : α → β} {read : β → Except ε α} {values : List α}
    (h : ∀ value ∈ values, read (write value) = .ok value) :
    (values.map write).mapM read = .ok values := by
  rw [mapM_eq_ok_iff, List.forall₂_map_left_iff, List.forall₂_same]
  exact h

/-- Lists that are written the same are as long as each other and are written the same value by
value. -/
theorem forall₂_of_map_eq_map {γ : Type} {f : α → γ} {g : β → γ} {R : α → β → Prop}
    {values : List α} {others : List β} (h : values.map f = others.map g)
    (hR : ∀ value ∈ values, ∀ other ∈ others, f value = g other → R value other) :
    List.Forall₂ R values others := by
  induction values generalizing others with
  | nil =>
      obtain rfl := List.map_eq_nil_iff.1 h.symm
      exact .nil
  | cons value values ih =>
      obtain ⟨other, rest, rfl, hvalue, hrest⟩ := List.map_eq_cons_iff.1 h.symm
      refine .cons (hR value (by simp) other (by simp) hvalue.symm) (ih hrest.symm ?_)
      intro value' hvalue' other' hother'
      exact hR value' (List.mem_cons_of_mem _ hvalue') other' (List.mem_cons_of_mem _ hother')

/-- Checking a list finds the first fault of its values. -/
theorem mapM_unlessFault {fault : α → Option ε} {g : α → β} (values : List α) :
    (values.mapM fun value => unlessFault (fault value) (g value)) =
      unlessFault (values.findSome? fault) (values.map g) := by
  induction values with
  | nil => rfl
  | cons value values ih =>
      rw [List.mapM_cons, ih, List.findSome?_cons]
      cases fault value with
      | some error => rfl
      | none => cases values.findSome? fault <;> rfl

/-- The first fault in nested lists. -/
theorem findSome?_flatMap {fault : β → Option ε} {parts : α → List β} {values : List α} :
    (values.flatMap parts).findSome? fault =
      values.findSome? fun value => (parts value).findSome? fault := by
  induction values with
  | nil => rfl
  | cons value values ih =>
      rw [List.flatMap_cons, List.findSome?_append, List.findSome?_cons, ih]
      cases (parts value).findSome? fault <;> rfl

/-- A check that does not depend on the place finds the first fault of the values. -/
theorem mapM_zipIdx_unlessFault {f : α × Nat → Except ε β} {fault : α → Option ε} {g : α → β}
    {values : List α}
    (h : ∀ value ∈ values, ∀ place, f (value, place) = unlessFault (fault value) (g value)) :
    values.zipIdx.mapM f = unlessFault (values.findSome? fault) (values.map g) := by
  have hplain : values.zipIdx.mapM f =
      values.zipIdx.mapM fun value => unlessFault (fault value.1) (g value.1) := by
    refine mapM_congr ?_
    rintro ⟨value, place⟩ hvalue
    exact h value (List.fst_mem_of_mem_zipIdx hvalue) place
  rw [hplain, mapM_unlessFault]
  conv_rhs => rw [← List.zipIdx_map_fst 0 values, List.findSome?_map, List.map_map]
  rfl

/-- The first value that fails a test, with its place. -/
theorem find?_zipIdx_eq_some_iff {fails : α → Bool} {values : List α} {value : α} {place : Nat} :
    (values.zipIdx.find? fun (value, _) => fails value) = some (value, place) ↔
      ∃ before after, values = before ++ value :: after ∧ before.length = place ∧
        (∀ other ∈ before, fails other = false) ∧ fails value = true := by
  rw [List.find?_eq_some_iff_append]
  constructor
  · intro h
    obtain ⟨hvalue, before, after, heq, hbefore⟩ := h
    have hplace : values.zipIdx[before.length]? = some (value, place) := by simp [heq]
    have hvalues := congrArg (List.map Prod.fst) heq
    rw [List.zipIdx_map_fst, List.map_append, List.map_cons] at hvalues
    refine ⟨before.map Prod.fst, after.map Prod.fst, hvalues, ?_, ?_, hvalue⟩
    · -- the pair stands behind as many pairs as its place counts
      rw [List.getElem?_zipIdx, Option.map_eq_some_iff] at hplace
      obtain ⟨_, _, h⟩ := hplace
      simpa using congrArg Prod.snd h
    · rw [List.forall_mem_map]
      intro other hother
      simpa using hbefore other hother
  · intro h
    obtain ⟨before, after, rfl, rfl, hbefore, hvalue⟩ := h
    refine ⟨hvalue, before.zipIdx, after.zipIdx (before.length + 1), ?_, ?_⟩
    · simp [List.zipIdx_append]
    · rintro ⟨other, _⟩ hother
      simpa using hbefore other (List.fst_mem_of_mem_zipIdx hother)

/-- No value fails a test. -/
theorem find?_zipIdx_eq_none_iff {fails : α → Bool} {values : List α} :
    (values.zipIdx.find? fun (value, _) => fails value) = none ↔
      ∀ value ∈ values, fails value = false := by
  rw [List.find?_eq_none]
  constructor
  · intro h value hvalue
    obtain ⟨place, hplace⟩ := List.mem_iff_getElem?.1 hvalue
    have hmem : (value, place) ∈ values.zipIdx := List.mem_zipIdx_iff_getElem?.2 hplace
    simpa using h _ hmem
  · rintro h ⟨value, place⟩ hmem
    simpa using h value (List.fst_mem_of_mem_zipIdx hmem)

end VaultBatch
