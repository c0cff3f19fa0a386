import VaultBatch.Proofs.Compile.Outcome

/-!
# Limits that can be used

`Limits.Usable` says what is required of limits, and `Limits.Refused` which requirement is reported
if one is not met: the first one. Checking finds just that (`Limits.check_eq_ok_iff`,
`Limits.check_eq_error_iff`). Under usable limits every place in a table fits a byte, so that
packing cannot fail (`Limits.Usable.compile_ne_encoding`).
-/

namespace VaultBatch.Limits

/-- The table has a place and no more than a byte can tell apart, and something is allowed where a
limit is set. -/
structure Usable (limits : Limits) : Prop where
  one_le_maxTokens : 1 ≤ limits.maxTokens
  maxTokens_le : limits.maxTokens ≤ 256
  maxOperations_ne : limits.maxOperations ≠ some 0
  maxInstructions_ne : limits.maxInstructions ≠ some 0

/-- The first requirement that is not met. -/
inductive Refused (limits : Limits) : LimitsError → Prop where
  | tableSize :
      limits.maxTokens = 0 ∨ 256 < limits.maxTokens → Refused limits (.tableSize limits.maxTokens)
  | noOperations :
      1 ≤ limits.maxTokens → limits.maxTokens ≤ 256 → limits.maxOperations = some 0 →
      Refused limits .noOperations
  | noInstructions :
      1 ≤ limits.maxTokens → limits.maxTokens ≤ 256 → limits.maxOperations ≠ some 0 →
      limits.maxInstructions = some 0 → Refused limits .noInstructions

variable {limits : Limits} {error : LimitsError}

/-- Limits pass exactly if they can be used. -/
theorem check_eq_ok_iff : limits.check = .ok () ↔ limits.Usable := by
  unfold check maxTableSize
  constructor
  · intro h
    split at h
    · cases h
    split at h
    · cases h
    split at h
    · cases h
    next hsize hoperations hinstructions =>
      exact ⟨by omega, by omega, hoperations, hinstructions⟩
  · intro h
    have hlow := h.one_le_maxTokens
    have hhigh := h.maxTokens_le
    rw [if_neg (by omega), if_neg h.maxOperations_ne, if_neg h.maxInstructions_ne]

/-- Limits are refused exactly for the listed faults. -/
theorem check_eq_error_iff : limits.check = .error error ↔ limits.Refused error := by
  unfold check maxTableSize
  constructor
  · intro h
    split at h
    · next hsize =>
      cases h
      exact .tableSize hsize
    next hsize =>
    split at h
    · next hoperations =>
      cases h
      exact .noOperations (by omega) (by omega) hoperations
    next hoperations =>
    split at h
    · next hinstructions =>
      cases h
      exact .noInstructions (by omega) (by omega) hoperations hinstructions
    · cases h
  · intro h
    cases h with
    | tableSize hsize => rw [if_pos hsize]
    | noOperations hlow hhigh hoperations => rw [if_neg (by omega), if_pos hoperations]
    | noInstructions hlow hhigh hoperations hinstructions =>
        rw [if_neg (by omega), if_neg hoperations, if_pos hinstructions]

/-- Tokens that the limits allow all have places that fit a byte. -/
theorem Usable.compile_ne_encoding (h : limits.Usable) (operations : List Operation)
    (error : EncodingError) : Batch.compile limits operations ≠ .error (.encoding error) := by
  intro hcompile
  have houtcome := Batch.outcome_compile limits operations
  rw [hcompile] at houtcome
  cases houtcome with
  | placeOutOfRange _ _ hfew hmany =>
      have hhigh := h.maxTokens_le
      rw [maxTableSize] at hmany
      omega

end VaultBatch.Limits
