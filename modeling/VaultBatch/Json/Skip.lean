import VaultBatch.Json.Number
import VaultBatch.Json.Text

/-!
# Passing over JSON values

A whole value is passed over without being built, brackets still open being kept in a list. The
lenient rules ask for no more than the form of JSON: numbers of any size, units that make no
characters and values of any depth are passed. The strict rules ask for strings and numbers that can
be read, and bound the depth.
-/

namespace VaultBatch.Json

/-- Whether a character is a blank between the parts of a text. -/
def isBlank (c : Char) : Bool :=
  c = ' ' || c = '\n' || c = '\t' || c = '\r'

/-- A text without the blanks at its start. -/
def dropBlanks (text : List Char) : List Char :=
  text.dropWhile isBlank

/-- What is asked of the parts of a value that is passed over. -/
structure SkipRules where
  /-- What follows a string, after its opening quote. -/
  text : List Char → Option (List Char)
  /-- Whether a number is accepted. -/
  number : Lexeme → Bool
  /-- How many brackets may be open at once, if that is bounded. -/
  maxDepth : Option Nat

namespace SkipRules

/-- The rules for members that nobody reads. -/
def lenient : SkipRules where
  text := Text.pass
  number _ := true
  maxDepth := none

/-- The rules for a value that is kept for later, within a depth. -/
def strict (depth : Nat) : SkipRules where
  text := fun text => (Text.read text).map (·.2)
  number lexeme := lexeme.value.isSome
  maxDepth := some depth

/-- Passes over a null, a truth value, a number or a string. -/
def scalar (rules : SkipRules) : List Char → Option (List Char)
  | 'n' :: 'u' :: 'l' :: 'l' :: rest => some rest
  | 't' :: 'r' :: 'u' :: 'e' :: rest => some rest
  | 'f' :: 'a' :: 'l' :: 's' :: 'e' :: rest => some rest
  | '"' :: rest => rules.text rest
  | text => do
    let (lexeme, rest) ← Lexeme.split text
    if rules.number lexeme then some rest else none

/-- Passes over the name of a member and the colon after it. -/
def name (rules : SkipRules) (text : List Char) : Option (List Char) :=
  match dropBlanks text with
  | '"' :: rest => do
    match dropBlanks (← rules.text rest) with
    | ':' :: rest => some rest
    | _ => none
  | _ => none

/-- A bracket that is still open. -/
inductive Bracket where
  | sequence | map

/-- Whether one more bracket may be open besides the given ones. -/
def allows (rules : SkipRules) (opened : List Bracket) : Bool :=
  match rules.maxDepth with
  | none => true
  | some bound => opened.length < bound

mutual

/-- Passes over a value and then over all open brackets. Every step takes a character away, so a
count of steps as large as the text is enough. -/
def value (rules : SkipRules) : Nat → List Bracket → List Char → Option (List Char)
  | 0, _, _ => none
  | steps + 1, opened, text =>
    match dropBlanks text with
    | '[' :: rest =>
      if rules.allows opened then
        match dropBlanks rest with
        | ']' :: rest => close rules steps opened rest
        | rest => value rules steps (.sequence :: opened) rest
      else none
    | '\x7b' :: rest =>
      if rules.allows opened then
        match dropBlanks rest with
        | '\x7d' :: rest => close rules steps opened rest
        | rest =>
          match rules.name rest with
          | some rest => value rules steps (.map :: opened) rest
          | none => none
      else none
    | text =>
      match rules.scalar text with
      | some rest => close rules steps opened rest
      | none => none

/-- Passes over what follows a value, up to the end of all open brackets. -/
def close (rules : SkipRules) : Nat → List Bracket → List Char → Option (List Char)
  | _, [], text => some text
  | 0, _, _ => none
  | steps + 1, .sequence :: opened, text =>
    match dropBlanks text with
    | ',' :: rest => value rules steps (.sequence :: opened) rest
    | ']' :: rest => close rules steps opened rest
    | _ => none
  | steps + 1, .map :: opened, text =>
    match dropBlanks text with
    | ',' :: rest =>
      match rules.name rest with
      | some rest => value rules steps (.map :: opened) rest
      | none => none
    | '\x7d' :: rest => close rules steps opened rest
    | _ => none

end

/-- Passes over one value. -/
def run (rules : SkipRules) (text : List Char) : Option (List Char) :=
  value rules text.length [] text

end SkipRules
end VaultBatch.Json
