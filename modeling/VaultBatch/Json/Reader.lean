import VaultBatch.Json.Error
import VaultBatch.Json.Skip

/-!
# Reading values from JSON

A reader takes a value off the start of a text. Texts are read strictly from left to right, so the
first fault in the text is the one reported: a member is looked at before its value, a value is
checked by its own rules as soon as it is complete, and members that are missing are noticed at the
closing brace.

Records are read from objects, with their members in any order, or from sequences, with their
members in order.
-/

namespace VaultBatch.Json

/-- Takes a value off the start of a text. -/
abbrev Reader := StateT (List Char) (Except Error)

variable {α β : Type}

/-- Nothing is read, and the fault is reported. -/
def Reader.fail (error : Error) : Reader α :=
  fun _ => .error error

/-- A step that can only find the text malformed. -/
def orMalformed (x : Option β) : Except Error β :=
  match x with
  | some value => .ok value
  | none => .error .malformed

/-- The value at the start of a text, as far as messages show it. -/
def found (text : List Char) : Except Error Found :=
  match text with
  | 'n' :: 'u' :: 'l' :: 'l' :: _ => .ok .null
  | 't' :: 'r' :: 'u' :: 'e' :: _ => .ok (.boolean true)
  | 'f' :: 'a' :: 'l' :: 's' :: 'e' :: _ => .ok (.boolean false)
  | '"' :: rest => do
    let (text, _) ← orMalformed (Text.read rest)
    return .text (String.ofList text)
  | '[' :: _ => .ok .sequence
  | '\x7b' :: _ => .ok .map
  | text => do
    let (lexeme, _) ← orMalformed (Lexeme.split text)
    match ← orMalformed lexeme.value with
    | .integer value => return .integer value
    | .float value => return .float value

/-- Reports that another value stands at the start of a text than was wanted. -/
def mismatch (wanted : Wanted) (text : List Char) : Except Error β := do
  throw (.wrongType (← found text) wanted)

/-! ## Single values -/

/-- Reads a string where the given thing is wanted. -/
def string (wanted : Wanted) : Reader String := fun text =>
  match dropBlanks text with
  | '"' :: rest => do
    let (text, rest) ← orMalformed (Text.read rest)
    return (String.ofList text, rest)
  | text => mismatch wanted text

/-- Reads a string and makes a value of it. -/
def checkedString (check : String → Except Rejection α) : Reader α := do
  let text ← string .text
  match check text with
  | .ok value => return value
  | .error reason => Reader.fail (.rejected reason)

/-- Reads a null. -/
def unit : Reader Unit := fun text =>
  match dropBlanks text with
  | 'n' :: 'u' :: 'l' :: 'l' :: rest => .ok ((), rest)
  | text => mismatch .unit text

/-- Reads a value or a null for none. A text that starts with the letter of a null has to be
one. -/
def optional (read : Reader α) : Reader (Option α) := fun text =>
  match dropBlanks text with
  | 'n' :: 'u' :: 'l' :: 'l' :: rest => .ok (none, rest)
  | 'n' :: _ => .error .malformed
  | text => do
    let (value, rest) ← read text
    return (some value, rest)

/-- Reads the colon between a name and its value. -/
def colon : Reader Unit := fun text =>
  match dropBlanks text with
  | ':' :: rest => .ok ((), rest)
  | _ => .error .malformed

/-! ## Numbers -/

/-- Reads an integer of up to 128 bits, which is plain digits and, where `signed`, a sign. -/
def wideInteger (signed : Bool) (low high : Int) : Reader Int := fun text => do
  let (negative, text) ← match dropBlanks text with
    | '-' :: rest => if signed then .ok (true, rest) else .error .malformed
    | rest => .ok (false, rest)
  let (digits, rest) ← orMalformed (Lexeme.splitWhole text)
  let magnitude : Int := Lexeme.natOfDigits digits
  let value := if negative then -magnitude else magnitude
  if low ≤ value ∧ value ≤ high then .ok (value, rest) else .error .malformed

/-- Reads an integer without a sign of up to 128 bits. -/
def natural128 : Reader Nat := do
  return (← wideInteger false 0 0xffffffffffffffffffffffffffffffff).toNat

/-- Reads a natural number below a bound, where the given thing is wanted. -/
def boundedNatural (bound : Nat) (wanted : Wanted) : Reader Nat := fun text =>
  match dropBlanks text with
  | c :: rest =>
    if c = '-' || c.isDigit then do
      let (lexeme, rest) ← orMalformed (Lexeme.split (c :: rest))
      match ← orMalformed lexeme.value with
      | .integer value =>
        if 0 ≤ value ∧ value < bound then return (value.toNat, rest)
        else throw (.wrongValue value wanted)
      | .float value => throw (.wrongType (.float value) wanted)
    else mismatch wanted (c :: rest)
  | [] => .error .malformed

/-- Reads a natural number that fits 64 bits. -/
def size : Reader Nat :=
  boundedNatural Lexeme.wordBound .size

/-- Reads a byte. -/
def byte : Reader UInt8 := do
  return UInt8.ofNat (← boundedNatural 256 .byte)

/-! ## Names -/

/-- Makes the value of a name, where the given names may stand. -/
def ofName (value? : String → Option α) (names : List String) (name : String) : Reader α :=
  match value? name with
  | some value => return value
  | none => Reader.fail (.unknownVariant name names)

/-- Reads a name, which is a string or the only name of an object, with a null as its value. -/
def oneOf (value? : String → Option α) (names : List String) : Reader α := fun text =>
  match dropBlanks text with
  | '"' :: rest => do
    let (name, rest) ← orMalformed (Text.read rest)
    ofName value? names (String.ofList name) rest
  | '\x7b' :: rest =>
    match dropBlanks rest with
    | '"' :: rest => do
      let (name, rest) ← orMalformed (Text.read rest)
      let (value, rest) ← ofName value? names (String.ofList name) rest
      let (_, rest) ← colon rest
      let (_, rest) ← unit rest
      match dropBlanks rest with
      | '\x7d' :: rest => return (value, rest)
      | _ => throw .malformed
    | _ => .error .malformed
  | _ => .error .malformed

/-! ## Sequences -/

/-- Whether a sequence goes on; at its first place no comma stands before the value. -/
def next (first : Bool) : Reader Bool := fun text =>
  match dropBlanks text with
  | [] => .error .malformed
  | ']' :: rest => .ok (false, ']' :: rest)
  | c :: rest =>
    if first then .ok (true, c :: rest)
    else if c = ',' then
      match dropBlanks rest with
      | [] => .error .malformed
      | ']' :: _ => .error .malformed
      | rest => .ok (true, rest)
    else .error .malformed

/-- Reads the end of a sequence. -/
def sequenceEnd : Reader Unit := fun text =>
  match dropBlanks text with
  | ']' :: rest => .ok ((), rest)
  | _ => .error .malformed

/-- Reads the values of a sequence that has been opened. Every value takes a character away, so a
count of values as large as the text is enough. -/
def elements (read : Reader α) : Nat → Bool → Reader (List α)
  | 0, _ => Reader.fail .malformed
  | count + 1, first => do
    if ← next first then
      let value ← read
      let values ← elements read count false
      return value :: values
    else
      sequenceEnd
      return []

/-- Reads a sequence of values. -/
def list (read : Reader α) : Reader (List α) := fun text =>
  match dropBlanks text with
  | '[' :: rest => elements read rest.length true rest
  | text => mismatch .sequence text

/-- Reads the member of a record at a place of a sequence, with a default if there is one. -/
def element (read : Reader α) (place : Nat) (wanted : Wanted) (default : Option α) : Reader α := do
  if ← next (place = 0) then read
  else
    match default with
    | some value => return value
    | none => Reader.fail (.wrongLength place wanted)

/-! ## Objects -/

/-- Reads the value of a member. -/
def member (read : Reader α) : Reader α := do
  colon
  read

/-- Passes over the value of a member. -/
def skipMember : Reader Unit := do
  colon
  fun text => do return ((), ← orMalformed (SkipRules.lenient.run text))

/-- Reads the members of an object that has been opened, each onto what the ones before it have
made. Every member takes a character away, so a count of members as large as the text is enough. -/
def members (step : β → String → Reader β) : Nat → Bool → β → Reader β
  | 0, _, _ => Reader.fail .malformed
  | count + 1, first, state => fun text =>
    let read (text : List Char) : Except Error (β × List Char) :=
      match dropBlanks text with
      | '"' :: rest => do
        let (name, rest) ← orMalformed (Text.read rest)
        let (state, rest) ← step state (String.ofList name) rest
        members step count false state rest
      | _ => .error .malformed
    match dropBlanks text with
    | '\x7d' :: rest => .ok (state, rest)
    | ',' :: rest => if first then .error .malformed else read rest
    | rest => if first then read rest else .error .malformed

/-- Reports a member that stands twice. -/
def once (slot : Option α) (name : String) : Reader Unit :=
  if slot.isSome then Reader.fail (.duplicateField name) else return ()

/-- The value of a member that has to be there. -/
def required (slot : Option α) (name : String) : Reader α :=
  match slot with
  | some value => return value
  | none => Reader.fail (.missingField name)

/-- Reads a record, from the members of an object or from the places of a sequence. -/
def record (wanted : Wanted) (step : β → String → Reader β) (start : β)
    (finish : β → Reader α) (places : Reader α) : Reader α := fun text =>
  match dropBlanks text with
  | '\x7b' :: rest => (do finish (← members step rest.length true start)) rest
  | '[' :: rest => (do
      let value ← places
      sequenceEnd
      return value) rest
  | text => mismatch wanted text

/-! ## Texts -/

/-- Reads a value from a whole text. -/
def parse (read : Reader α) (text : String) : Except Error α := do
  let (value, rest) ← read text.toList
  if (dropBlanks rest).isEmpty then return value else throw .malformed

end VaultBatch.Json
