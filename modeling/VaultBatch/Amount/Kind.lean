import VaultBatch.Kinds

/-!
# Amount policies

How the vault takes the amount of an instruction. A policy has a name and a byte; the middle one
has a second spelling with an underscore.
-/

namespace VaultBatch

/-- How the vault takes the amount of an instruction. -/
inductive AmountKind where
  /-- Move exactly the amount. -/
  | exactly
  /-- Move the amount or less. -/
  | atMost
  /-- Move all there is; the amount is a bound. -/
  | all
  deriving DecidableEq

namespace AmountKind

/-- The policies in the order of their bytes. -/
def every : List AmountKind :=
  [exactly, atMost, all]

/-- The name of a policy. -/
def name : AmountKind → String
  | exactly => "exactly"
  | atMost => "at most"
  | all => "all"

/-- The byte of a policy. -/
def byte : AmountKind → UInt8
  | exactly => 0
  | atMost => 1
  | all => 2

/-- The policy of a byte. -/
def ofByte? (b : UInt8) : Option AmountKind :=
  every.find? (·.byte == b)

/-- The policy of a name, or of the spelling with an underscore. -/
def ofName? (text : String) : Option AmountKind :=
  if text = "at_most" then some atMost else every.find? (·.name == text)

/-- A policy is found under its byte and under no other. -/
theorem ofByte?_eq_some_iff {b : UInt8} {kind : AmountKind} :
    ofByte? b = some kind ↔ kind.byte = b :=
  find?_mark_eq_some_iff fun kind => by cases kind <;> rfl

/-- A byte belongs to a policy exactly if it is at most two. -/
theorem ofByte?_isSome_iff {b : UInt8} : (ofByte? b).isSome ↔ b.toNat ≤ 2 :=
  (isSome_find?_byte_iff rfl).trans Nat.lt_succ_iff

/-- Among the policies, one is found under its name and under no other. -/
theorem find?_name_eq_some_iff {text : String} {kind : AmountKind} :
    every.find? (·.name == text) = some kind ↔ kind.name = text :=
  find?_mark_eq_some_iff fun kind => by cases kind <;> decide

/-- A policy is found under its name. -/
@[simp] theorem ofName?_name (kind : AmountKind) : ofName? kind.name = some kind := by
  cases kind <;> decide

end AmountKind
end VaultBatch
