/-!
# Limits

How much one batch may hold. Limits that are kept outside the program are checked before use:
a table has between one and 256 places, and a limit that is set is positive.
-/

namespace VaultBatch

/-- The most tokens that a table can hold, since a place in it is one byte. -/
def maxTableSize : Nat := 256

/-- How much one batch may hold. -/
structure Limits where
  /-- The most distinct tokens in a batch. -/
  maxTokens : Nat := maxTableSize
  /-- The most operations in a batch. -/
  maxOperations : Option Nat := none
  /-- The most instructions in an operation. -/
  maxInstructions : Option Nat := none
  deriving DecidableEq

/-- Why limits cannot be used. -/
inductive LimitsError where
  /-- There is no text to read them from. -/
  | unreadable
  /-- The text is no list of limits. -/
  | malformed
  /-- The table size is zero or more than a place can tell apart. -/
  | tableSize (got : Nat)
  /-- No operation is allowed. -/
  | noOperations
  /-- No instruction is allowed. -/
  | noInstructions
  deriving DecidableEq

/-- The fault in words, if it is about a value. -/
def LimitsError.message? : LimitsError → Option String
  | .unreadable => none
  | .malformed => none
  | .tableSize got =>
    some ("Invalid config value for max_tokens: must be within 1..=" ++ toString maxTableSize ++
      ", got " ++ toString got)
  | .noOperations => some "Invalid config value for max_operations: must be positive when set"
  | .noInstructions =>
    some "Invalid config value for max_instructions_per_operation: must be positive when set"

namespace Limits

/-- Checks limits before use. -/
def check (limits : Limits) : Except LimitsError Unit :=
  if limits.maxTokens = 0 ∨ maxTableSize < limits.maxTokens then
    .error (.tableSize limits.maxTokens)
  else if limits.maxOperations = some 0 then .error .noOperations
  else if limits.maxInstructions = some 0 then .error .noInstructions
  else .ok ()

end Limits
end VaultBatch
