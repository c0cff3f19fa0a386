import VaultBatch.Bytes.Hex
import VaultBatch.Text.Decimal
import VaultBatch.Token.Kind

/-!
# Faults of input values

Why a value cannot be written in its field or read from its text. Each cause is a constructor;
`EncodingError.message` has the words.
-/

namespace VaultBatch

/-- A field that a faulty value was meant for. -/
inductive Field where
  | tokenId | tokenKind | tokenIndex | amountKind | address | amount | reference | descriptor
  | tokenTable
  deriving DecidableEq

/-- The field in words. -/
def Field.name : Field → String
  | .tokenId => "token id"
  | .tokenKind => "token kind"
  | .tokenIndex => "token index"
  | .amountKind => "amount kind"
  | .address => "address"
  | .amount => "amount"
  | .reference => "reference"
  | .descriptor => "reference descriptor"
  | .tokenTable => "token table"

/-- What is wrong with an input. -/
inductive Flaw where
  /-- The input is no hexadecimal text. -/
  | hex (flaw : Hex.Flaw)
  /-- The input has another number of bytes. -/
  | width (expected got : Nat)
  /-- The input is no decimal integer. -/
  | integer (flaw : Decimal.Flaw)
  /-- A table entry is not above the one before it. -/
  | notAscending (entry : Nat)
  /-- A reference names a target and a token standard. -/
  | targetWithKind (kind : TokenKind)
  /-- A reference names a target and a token number. -/
  | targetWithId
  /-- A reference names neither a target nor a token standard. -/
  | noTargetNorKind
  deriving DecidableEq

/-- The flaw in words. -/
def Flaw.message : Flaw → String
  | .hex flaw => flaw.message
  | .width expected got => "expected " ++ toString expected ++ " bytes, got " ++ toString got
  | .integer flaw => flaw.message
  | .notAscending entry => "entry " ++ toString entry ++ " is not strictly ascending"
  | .targetWithKind kind => "both a target type and token kind " ++ kind.name ++ " given"
  | .targetWithId => "pools and gauges take no id"
  | .noTargetNorKind => "expected a \"type\" or \"kind\" field"

/-- Why a value cannot be written in its field or read from its text. -/
inductive EncodingError where
  /-- The value is too large for its field. -/
  | outOfRange (field : Field) (value max : Nat)
  /-- No kind has this name or byte. -/
  | unknownKind (field : Field) (value : String)
  /-- The amount does not fit 128 bits with a sign. -/
  | overflow (value : String)
  /-- The text cannot be read. -/
  | malformed (field : Field) (input : String) (flaw : Flaw)
  deriving DecidableEq

/-- The fault in words. -/
def EncodingError.message : EncodingError → String
  | .outOfRange field value max =>
    field.name ++ " value " ++ toString value ++ " out of range: maximum is " ++ toString max
  | .unknownKind field value => "Unknown " ++ field.name ++ ": " ++ Text.Quoted.text value
  | .overflow value => "Amount " ++ value ++ " overflows a signed 128-bit integer"
  | .malformed field input flaw =>
    "Malformed " ++ field.name ++ ": " ++ Text.Quoted.text input ++ " (" ++ flaw.message ++ ")"

namespace Field

variable {α : Type} {field : Field} {text : String} {found : Option α} {value : α}
  {error : EncodingError}

/-- What was found under a text, or else that the field has no such kind. -/
def known (field : Field) (text : String) : Option α → Except EncodingError α
  | some value => .ok value
  | none => .error (.unknownKind field text)

/-- A kind is known exactly if it was found. -/
theorem known_eq_ok_iff : field.known text found = .ok value ↔ found = some value := by
  cases found <;> simp [known]

/-- A kind is unknown exactly if none was found. -/
theorem known_eq_error_iff :
    field.known text found = .error error ↔ found = none ∧ error = .unknownKind field text := by
  cases found <;> simp [known, eq_comm]

end Field
end VaultBatch
