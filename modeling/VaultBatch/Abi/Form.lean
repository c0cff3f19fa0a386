import VaultBatch.Bytes.BigEndian

/-!
# Argument regions of contract calls

Values are laid out in regions of words. A region starts with its heads, one word for each value:
the value itself if it is a word, or else the offset of its content, which stands behind the heads.
A form says how the values of one type are written and read.

Reading follows the offsets wherever they point. It asks only that offsets and lengths fit four
bytes and that everything read lies inside the region; contents may overlap, stand in any order and
leave gaps, and what fills the last word of a content is not looked at.
-/

namespace VaultBatch.Abi

/-- A word. -/
abbrev Word := Bytes 32

/-- What a value puts into its region. -/
inductive Part where
  /-- The value is its own head. -/
  | word (word : Word)
  /-- The head is an offset of this content. -/
  | content (bytes : List UInt8)

namespace Part

/-- The heads of parts, whose contents start at the given offset. -/
def heads : Nat → List Part → List UInt8
  | _, [] => []
  | offset, word w :: rest => w.toList ++ heads offset rest
  | offset, content bytes :: rest =>
    BigEndian.encodeList 32 offset ++ heads (offset + bytes.length) rest

/-- The content of a part. -/
def tail : Part → List UInt8
  | word _ => []
  | content bytes => bytes

/-- The region of parts: all heads, then all contents. -/
def region (parts : List Part) : List UInt8 :=
  heads (32 * parts.length) parts ++ parts.flatMap tail

end Part

/-- The word at an offset of a region. -/
def wordAt (region : List UInt8) (offset : Nat) : Option Word :=
  Bytes.ofList? 32 ((region.drop offset).take 32)

/-- The first number that is no offset or length. -/
def sizeBound : Nat := Bytes.count 4

/-- The offset or length that stands in the word at an offset. -/
def sizeAt (region : List UInt8) (offset : Nat) : Option Nat := do
  let size := BigEndian.decode (← wordAt region offset)
  if size < sizeBound then some size else none

/-- Zeros that fill the last word of some bytes. -/
def padding (length : Nat) : List UInt8 :=
  List.replicate ((32 - length % 32) % 32) 0

/-- How the values of a type are written and read. -/
structure Form (α : Type) where
  /-- The type in the signature of a method. -/
  name : String
  /-- What a value puts into its region. -/
  write : α → Part
  /-- The value whose head is at an offset of a region. -/
  read : List UInt8 → Nat → Option α

namespace Form

variable {α β γ : Type}

/-- Words, which have several names in signatures. -/
def word (name : String) : Form Word where
  name := name
  write := .word
  read := wordAt

/-- Byte strings of any length, after a word for the length. -/
def bytes : Form (List UInt8) where
  name := "bytes"
  write content :=
    .content (BigEndian.encodeList 32 content.length ++ content ++ padding content.length)
  read region offset := do
    let start ← sizeAt region offset
    let length ← sizeAt region start
    if start + 32 + length ≤ region.length then
      some ((region.drop (start + 32)).take length)
    else none

/-- Reads values from as many heads, the first one at an offset. -/
def readMany (form : Form α) (region : List UInt8) : Nat → Nat → Option (List α)
  | 0, _ => some []
  | count + 1, offset => do
    let value ← form.read region offset
    let values ← readMany form region count (offset + 32)
    return value :: values

/-- Lists, as a region of their own after a word for the length. -/
def list (form : Form α) : Form (List α) where
  name := form.name ++ "[]"
  write values :=
    .content (BigEndian.encodeList 32 values.length ++ Part.region (values.map form.write))
  read region offset := do
    let start ← sizeAt region offset
    let count ← sizeAt region start
    readMany form (region.drop (start + 32)) count 0

/-- The region of three values. -/
def writeThree (f : Form α) (g : Form β) (h : Form γ) (value : α × β × γ) : List UInt8 :=
  Part.region [f.write value.1, g.write value.2.1, h.write value.2.2]

/-- Reads three values from the start of a region. -/
def readThree (f : Form α) (g : Form β) (h : Form γ) (region : List UInt8) :
    Option (α × β × γ) := do
  let first ← f.read region 0
  let second ← g.read region 32
  let third ← h.read region 64
  return (first, second, third)

/-- Triples in a region of their own. -/
def triple (f : Form α) (g : Form β) (h : Form γ) : Form (α × β × γ) where
  name := "(" ++ f.name ++ "," ++ g.name ++ "," ++ h.name ++ ")"
  write value := .content (writeThree f g h value)
  read region offset := do
    let start ← sizeAt region offset
    readThree f g h (region.drop start)

end Form
end VaultBatch.Abi
