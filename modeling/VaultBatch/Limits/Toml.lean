import VaultBatch.Limits
import VaultBatch.Text.Decimal

/-!
# Limits as a TOML document

A document of limits is a list of lines, each of which sets one key to a natural number or is
empty; blanks may stand around every part and a comment at the end. A key may be bare or quoted, a
number decimal or in base two, eight or sixteen, with underscores between its digits and below
2^63. Every key is set at most once; a key that is not set has its default. All other TOML
documents set something that is no limit, and are refused like texts that are no TOML at all.
-/

namespace VaultBatch.Limits

/-- The largest integer of a document. -/
def maxInteger : Nat := 0x7fffffffffffffff

/-- What a line may set. -/
inductive Key where
  | maxTokens | maxOperations | maxInstructions
  deriving DecidableEq

namespace Key

/-- The keys in the order in which they are written. -/
def all : List Key :=
  [maxTokens, maxOperations, maxInstructions]

/-- The name of a key. -/
def name : Key → String
  | maxTokens => "max_tokens"
  | maxOperations => "max_operations"
  | maxInstructions => "max_instructions_per_operation"

/-- The key of a name. -/
def ofName? (text : String) : Option Key :=
  all.find? (·.name == text)

end Key

/-- The value of a key, if it is set. -/
def get? (limits : Limits) : Key → Option Nat
  | .maxTokens => some limits.maxTokens
  | .maxOperations => limits.maxOperations
  | .maxInstructions => limits.maxInstructions

/-! ## Writing -/

/-- The line that sets a key. -/
def line (key : Key) (value : Nat) : String :=
  key.name ++ " = " ++ String.ofList (Decimal.ofNat value) ++ "\n"

/-- The document of limits, unless one of them is above the largest integer. -/
def toToml (limits : Limits) : Option String :=
  let settings := Key.all.filterMap fun key => (limits.get? key).map fun value => (key, value)
  if settings.all fun (_, value) => value ≤ maxInteger then
    some (String.join (settings.map fun (key, value) => line key value))
  else none

/-! ## Lines and comments -/

/-- Whether a character is a blank within a line. -/
def isSpace (c : Char) : Bool :=
  c = ' ' || c = '\t'

/-- Whether a character may stand in a comment: the tab and all but control characters. -/
def isPlain (c : Char) : Bool :=
  c = '\t' || (0x20 ≤ c.toNat && c.toNat ≠ 0x7f)

/-- Text without the blanks at its start. -/
def dropSpaces (text : List Char) : List Char :=
  text.dropWhile isSpace

/-- The lines of a text, which end with a line feed or with a carriage return and a line feed. -/
def lines : List Char → List (List Char)
  | [] => [[]]
  | '\n' :: rest => [] :: lines rest
  | '\r' :: '\n' :: rest => [] :: lines rest
  | c :: rest =>
    match lines rest with
    | [] => [[c]]
    | line :: more => (c :: line) :: more

/-- Whether nothing but blanks and a comment is left in a line. -/
def isLineEnd (text : List Char) : Bool :=
  match dropSpaces text with
  | [] => true
  | '#' :: comment => comment.all isPlain
  | _ => false

/-! ## Keys -/

/-- Whether a character may stand in a key without quotes. -/
def isBare (c : Char) : Bool :=
  c.isAlphanum || c = '_' || c = '-'

/-- The number that hexadecimal digits stand for. -/
def hexValue? (digits : List Char) : Option Nat :=
  digits.foldlM (fun value c => (Digit.value? 16 c).map (16 * value + ·)) 0

/-- The character of a code point, if it has one. -/
def charOf? (code : Nat) : Option Char :=
  if h : code.isValidChar then some (Char.ofNatAux code h) else none

/-- Reads the rest of a key after a double quote, with escapes, up to the closing quote. -/
def readEscaped : List Char → Option (List Char × List Char)
  | [] => none
  | '"' :: rest => some ([], rest)
  | '\\' :: 'u' :: a :: b :: c :: d :: rest => do
    let char ← charOf? (← hexValue? [a, b, c, d])
    let (key, after) ← readEscaped rest
    return (char :: key, after)
  | '\\' :: 'U' :: a :: b :: c :: d :: e :: f :: g :: h :: rest => do
    let char ← charOf? (← hexValue? [a, b, c, d, e, f, g, h])
    let (key, after) ← readEscaped rest
    return (char :: key, after)
  | '\\' :: c :: rest => do
    let char ← [('b', '\x08'), ('t', '\t'), ('n', '\n'), ('f', '\x0c'), ('r', '\r'), ('"', '"'),
      ('\\', '\\')].lookup c
    let (key, after) ← readEscaped rest
    return (char :: key, after)
  | c :: rest =>
    if isPlain c && c ≠ '\\' then do
      let (key, after) ← readEscaped rest
      return (c :: key, after)
    else none

/-- Reads the rest of a key after a single quote, up to the closing quote. -/
def readLiteral : List Char → Option (List Char × List Char)
  | [] => none
  | '\x27' :: rest => some ([], rest)
  | c :: rest =>
    if isPlain c then do
      let (key, after) ← readLiteral rest
      return (c :: key, after)
    else none

/-- Reads the name of a key. -/
def readName : List Char → Option (List Char × List Char)
  | '"' :: rest => readEscaped rest
  | '\x27' :: rest => readLiteral rest
  | text =>
    if (text.takeWhile isBare).isEmpty then none
    else some (text.takeWhile isBare, text.dropWhile isBare)

/-! ## Numbers -/

/-- Reads digits in a base onto a number already read, each of them with or without an underscore
before it. -/
def readDigits (base : Nat) : Nat → List Char → Nat × List Char
  | value, [] => (value, [])
  | value, '_' :: c :: rest =>
    match Digit.value? base c with
    | some digit => readDigits base (base * value + digit) rest
    | none => (value, '_' :: c :: rest)
  | value, c :: rest =>
    match Digit.value? base c with
    | some digit => readDigits base (base * value + digit) rest
    | none => (value, c :: rest)

/-- Reads a number in a base that starts with a digit. -/
def readNumber (base : Nat) : List Char → Option (Nat × List Char)
  | [] => none
  | c :: rest => (Digit.value? base c).map fun digit => readDigits base digit rest

/-- Reads a decimal number, which does not start with a zero unless it is zero. -/
def readDecimal : List Char → Option (Nat × List Char)
  | '0' :: rest => some (0, rest)
  | text => readNumber 10 text

/-- Reads the value of a key. A sign may stand before a decimal number, but a negative number
is no limit. -/
def readValue : List Char → Option (Nat × List Char)
  | '0' :: 'x' :: digits => readNumber 16 digits
  | '0' :: 'o' :: digits => readNumber 8 digits
  | '0' :: 'b' :: digits => readNumber 2 digits
  | '+' :: digits => readDecimal digits
  | '-' :: digits => do
    let (value, rest) ← readDecimal digits
    if value = 0 then some (value, rest) else none
  | digits => readDecimal digits

/-! ## Documents -/

/-- The values that the keys have been set to. -/
abbrev Settings := List (Key × Nat)

/-- Reads a line onto the settings of the lines before it. -/
def readLine (settings : Settings) (line : List Char) : Option Settings :=
  if isLineEnd line then some settings
  else do
    let (name, afterName) ← readName (dropSpaces line)
    let key ← Key.ofName? (String.ofList name)
    match dropSpaces afterName with
    | '=' :: afterEquals => do
      let (value, rest) ← readValue (dropSpaces afterEquals)
      if isLineEnd rest && value ≤ maxInteger && (settings.lookup key).isNone then
        some ((key, value) :: settings)
      else none
    | _ => none

/-- A text without a byte order mark at its start. -/
def dropByteOrderMark : List Char → List Char
  | '\ufeff' :: rest => rest
  | text => text

/-- The limits that settings stand for. -/
def ofSettings (settings : Settings) : Limits where
  maxTokens := (settings.lookup .maxTokens).getD maxTableSize
  maxOperations := settings.lookup .maxOperations
  maxInstructions := settings.lookup .maxInstructions

/-- Reads limits from a document and checks them. -/
def ofToml (text : String) : Except LimitsError Limits :=
  match (lines (dropByteOrderMark text.toList)).foldlM readLine [] with
  | none => .error .malformed
  | some settings => do
    (ofSettings settings).check
    return ofSettings settings

/-- Reads limits from the bytes of a file, if there is one. -/
def load (contents : Option (List UInt8)) : Except LimitsError Limits :=
  match contents.bind fun bytes => String.fromUTF8? ⟨bytes.toArray⟩ with
  | none => .error .unreadable
  | some text => ofToml text

end VaultBatch.Limits
