import VaultBatch.Batch
import VaultBatch.Text.Shortest

/-!
# Faults of JSON texts

A text that is no JSON, or whose numbers are out of all bounds, is malformed and nothing more is
said about it. A text that is JSON but not the form of a value has a cause of its own, and a value
that is refused by its own rules has theirs.
-/

namespace VaultBatch.Json

/-- What stands in a text, as far as messages show it. -/
inductive Found where
  | null
  | boolean (value : Bool)
  | integer (value : Int)
  | float (value : Float)
  | text (value : String)
  | sequence
  | map

/-- What a text should have. -/
inductive Wanted where
  | text
  | sequence
  | record (name : String)
  | elements (name : String) (count : Nat)
  | tagged (name : String)
  | variantName
  | unit
  | size
  | byte

/-- Why a value is refused by its own rules. -/
inductive Rejection where
  | encoding (error : EncodingError)
  | decode (error : DecodeError)
  | instruction (error : PackedInstruction.ParseError)
  | batch (error : BatchError)

/-- Why a value cannot be read from a text. -/
inductive Error where
  /-- The text is no JSON, or a number is out of all bounds. -/
  | malformed
  /-- Something else stands where a value should. -/
  | wrongType (found : Found) (wanted : Wanted)
  /-- An integer is out of the bounds of the value. -/
  | wrongValue (value : Int) (wanted : Wanted)
  /-- A sequence ends too early. -/
  | wrongLength (length : Nat) (wanted : Wanted)
  /-- A member is missing. -/
  | missingField (name : String)
  /-- A member stands twice. -/
  | duplicateField (name : String)
  /-- A member is none of those that may stand there. -/
  | unknownField (name : String) (known : List String)
  /-- A name is none of those that may stand there. -/
  | unknownVariant (name : String) (known : List String)
  /-- The value is refused by its own rules. -/
  | rejected (reason : Rejection)

/-- What was found, in words. -/
def Found.message : Found → String
  | .null => "null"
  | .boolean true => "boolean `true`"
  | .boolean false => "boolean `false`"
  | .integer value => "integer `" ++ String.ofList (Decimal.ofInt value) ++ "`"
  | .float value => "floating point `" ++ String.ofList (Shortest.ofFloat value) ++ "`"
  | .text value => "string " ++ Text.Quoted.text value
  | .sequence => "sequence"
  | .map => "map"

/-- What was wanted, in words. -/
def Wanted.message : Wanted → String
  | .text => "a string"
  | .sequence => "a sequence"
  | .record name => "struct " ++ name
  | .elements name count =>
    "struct " ++ name ++ " with " ++ toString count ++ (if count = 1 then " element" else " elements")
  | .tagged name => "adjacently tagged enum " ++ name
  | .variantName => "variant identifier"
  | .unit => "unit"
  | .size => "usize"
  | .byte => "u8"

/-- The refusal in words. -/
def Rejection.message : Rejection → String
  | .encoding error => error.message
  | .decode error => error.message
  | .instruction error => error.message
  | .batch error => error.message

/-- Names that may stand in a place, in words. -/
def knownNames (names : List String) : String :=
  match names.map fun name => "`" ++ name ++ "`" with
  | [name] => "expected " ++ name
  | [first, second] => "expected " ++ first ++ " or " ++ second
  | names => "expected one of " ++ ", ".intercalate names

/-- The fault in words, unless the text is malformed. -/
def Error.message? : Error → Option String
  | .malformed => none
  | .wrongType found wanted =>
    some ("invalid type: " ++ found.message ++ ", expected " ++ wanted.message)
  | .wrongValue value wanted =>
    some ("invalid value: " ++ (Found.integer value).message ++ ", expected " ++ wanted.message)
  | .wrongLength length wanted =>
    some ("invalid length " ++ toString length ++ ", expected " ++ wanted.message)
  | .missingField name => some ("missing field `" ++ name ++ "`")
  | .duplicateField name => some ("duplicate field `" ++ name ++ "`")
  | .unknownField name known => some ("unknown field `" ++ name ++ "`, " ++ knownNames known)
  | .unknownVariant name known => some ("unknown variant `" ++ name ++ "`, " ++ knownNames known)
  | .rejected reason => some reason.message

end VaultBatch.Json
