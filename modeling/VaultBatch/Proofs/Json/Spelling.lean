import Mathlib.Data.List.DropRight
import VaultBatch.Proofs.Json.Containers

/-!
# Spellings of JSON values

The same value may be spelled in many ways: with blanks between its parts, and with escapes for the
characters of its strings. `Value` is what a text says and `Spells start value rest` says that
`start` spells the value and goes on with `rest`. It is the grammar of JSON and knows of no reader.
A string is read from each of its spellings (`SpellsText.read_eq`), and what is written is one
spelling among others (`writes_text`, `writes_natural`, `writes_object`).
-/

namespace VaultBatch.Json

/-- What a JSON text says. A number is kept as it is spelled; an object keeps the order of its
members and may repeat their names. -/
inductive Value where
  | null
  | boolean (value : Bool)
  | number (literal : List Char)
  | text (value : String)
  | sequence (values : List Value)
  | object (members : List (String × Value))

/-- A natural number. -/
def Value.natural (n : Nat) : Value :=
  .number (Decimal.ofNat n)

/-! ## Strings and numbers -/

/-- The first text, which stands behind an opening quote, spells the second one up to the closing
quote and goes on with the third. -/
inductive SpellsText : List Char → List Char → List Char → Prop where
  | close (rest : List Char) : SpellsText ('"' :: rest) [] rest
  | plain {c : Char} {inner text rest : List Char} :
      c ≠ '"' → c ≠ '\\' → Text.isControl c = false → SpellsText inner text rest →
      SpellsText (c :: inner) (c :: text) rest
  | short {letter c : Char} {inner text rest : List Char} :
      Text.shortEscapes.lookup letter = some c → SpellsText inner text rest →
      SpellsText ('\\' :: letter :: inner) (c :: text) rest
  /-- A character of the first plane. -/
  | unit {a b c d : Char} {unit : Nat} {inner text rest : List Char} :
      Text.unit? a b c d = some unit → Text.isLeading unit = false →
      Text.isTrailing unit = false → SpellsText inner text rest →
      SpellsText ('\\' :: 'u' :: a :: b :: c :: d :: inner) (Char.ofNat unit :: text) rest
  /-- A character above the first plane. -/
  | units {a b c d e f g h : Char} {leading trailing : Nat} {inner text rest : List Char} :
      Text.unit? a b c d = some leading → Text.isLeading leading = true →
      Text.unit? e f g h = some trailing → Text.isTrailing trailing = true →
      SpellsText inner text rest →
      SpellsText
        ('\\' :: 'u' :: a :: b :: c :: d :: '\\' :: 'u' :: e :: f :: g :: h :: inner)
        (Text.joinUnits leading trailing :: text) rest

/-- At least one digit. -/
def IsDigits (text : List Char) : Prop :=
  text ≠ [] ∧ ∀ c ∈ text, c.isDigit = true

/-- An exponent, or nothing. -/
inductive IsExponent : List Char → Prop where
  | none : IsExponent []
  | plain {letter : Char} {digits : List Char} :
      letter = 'e' ∨ letter = 'E' → IsDigits digits → IsExponent (letter :: digits)
  | signed {letter sign : Char} {digits : List Char} :
      letter = 'e' ∨ letter = 'E' → sign = '+' ∨ sign = '-' → IsDigits digits →
      IsExponent (letter :: sign :: digits)

/-- What may stand behind the digits before the point: a fraction, an exponent, both or nothing. -/
inductive IsTail : List Char → Prop where
  | exponent {exponent : List Char} : IsExponent exponent → IsTail exponent
  | point {digits exponent : List Char} :
      IsDigits digits → IsExponent exponent → IsTail ('.' :: (digits ++ exponent))

/-- A number; no zero stands before other digits. -/
inductive IsNumber : List Char → Prop where
  | positive (n : Nat) {tail : List Char} : IsTail tail → IsNumber (Decimal.ofNat n ++ tail)
  | negative (n : Nat) {tail : List Char} :
      IsTail tail → IsNumber ('-' :: (Decimal.ofNat n ++ tail))

/-! ## Values -/

mutual
/-- `Spells start value rest` says that `start` is a spelling of the value, perhaps with blanks
before it, and `rest` what stands behind it. -/
inductive Spells : List Char → Value → List Char → Prop where
  | null {start rest : List Char} :
      dropBlanks start = 'n' :: 'u' :: 'l' :: 'l' :: rest → Spells start .null rest
  | boolean {start rest : List Char} (value : Bool) :
      dropBlanks start = (toString value).toList ++ rest → Spells start (.boolean value) rest
  | number {start literal rest : List Char} :
      IsNumber literal → dropBlanks start = literal ++ rest →
      Spells start (.number literal) rest
  | text {start inner rest : List Char} {value : String} :
      dropBlanks start = '"' :: inner → SpellsText inner value.toList rest →
      Spells start (.text value) rest
  | emptySequence {start inner rest : List Char} :
      dropBlanks start = '[' :: inner → dropBlanks inner = ']' :: rest →
      Spells start (.sequence []) rest
  | sequence {start inner middle rest : List Char} {value : Value} {values : List Value} :
      dropBlanks start = '[' :: inner → Spells inner value middle →
      SpellsValues middle values rest → Spells start (.sequence (value :: values)) rest
  | emptyObject {start inner rest : List Char} :
      dropBlanks start = '\x7b' :: inner → dropBlanks inner = '\x7d' :: rest →
      Spells start (.object []) rest
  | object {start inner middle rest : List Char} {member : String × Value}
      {members : List (String × Value)} :
      dropBlanks start = '\x7b' :: inner → SpellsMember inner member middle →
      SpellsMembers middle members rest → Spells start (.object (member :: members)) rest

/-- The further values of a sequence, each behind a comma, and the closing bracket. -/
inductive SpellsValues : List Char → List Value → List Char → Prop where
  | close {start rest : List Char} :
      dropBlanks start = ']' :: rest → SpellsValues start [] rest
  | value {start inner middle rest : List Char} {value : Value} {values : List Value} :
      dropBlanks start = ',' :: inner → Spells inner value middle →
      SpellsValues middle values rest → SpellsValues start (value :: values) rest

/-- A name, a colon and a value. -/
inductive SpellsMember : List Char → String × Value → List Char → Prop where
  | member {start inner middle after rest : List Char} {name : String} {value : Value} :
      dropBlanks start = '"' :: inner → SpellsText inner name.toList middle →
      dropBlanks middle = ':' :: after → Spells after value rest →
      SpellsMember start (name, value) rest

/-- The further members of an object, each behind a comma, and the closing brace. -/
inductive SpellsMembers : List Char → List (String × Value) → List Char → Prop where
  | close {start rest : List Char} :
      dropBlanks start = '\x7d' :: rest → SpellsMembers start [] rest
  | member {start inner middle rest : List Char} {member : String × Value}
      {members : List (String × Value)} :
      dropBlanks start = ',' :: inner → SpellsMember inner member middle →
      SpellsMembers middle members rest → SpellsMembers start (member :: members) rest
end

/-- The text is a spelling of the value, with nothing but blanks before and behind it. -/
def Document (text : String) (value : Value) : Prop :=
  ∃ rest, Spells text.toList value rest ∧ dropBlanks rest = []

/-! ## What stands at the start -/

/-- Blanks that have been dropped are not there any more. -/
theorem dropBlanks_cons_of_eq {start inner : List Char} {c : Char}
    (h : dropBlanks start = c :: inner) : dropBlanks (c :: inner) = c :: inner := by
  rw [← h]
  exact List.dropWhile_idempotent _ start

/-- Dropping blanks makes a text no longer. -/
theorem length_dropBlanks_le (text : List Char) : (dropBlanks text).length ≤ text.length :=
  (List.dropWhile_sublist _).length_le

/-- Behind a character there is less than before its blanks. -/
theorem length_lt_of_dropBlanks {start inner : List Char} {c : Char}
    (h : dropBlanks start = c :: inner) : inner.length < start.length := by
  have hle := length_dropBlanks_le start
  rw [h, List.length_cons] at hle
  exact hle

/-- Nothing but blanks may stand before a comma, a closing bracket or the end. -/
theorem delimited_of_dropBlanks {rest : List Char}
    (h : ∀ c ∈ (dropBlanks rest).head?, c = ',' ∨ c = ']' ∨ c = '\x7d') : Delimited rest := by
  intro c hc
  cases rest with
  | nil => cases hc
  | cons d rest =>
      cases hc
      cases hblank : isBlank c with
      | true => exact .inl rfl
      | false =>
          refine .inr (h c ?_)
          rw [dropBlanks, List.dropWhile_cons, hblank]
          rfl

/-- A value may stand in front of the further members of an object. -/
theorem SpellsMembers.delimited {start rest : List Char} {members : List (String × Value)}
    (h : SpellsMembers start members rest) : Delimited start := by
  refine delimited_of_dropBlanks ?_
  intro c hc
  cases h with
  | close heq =>
      rw [heq] at hc
      cases hc
      exact .inr (.inr rfl)
  | member heq =>
      rw [heq] at hc
      cases hc
      exact .inl rfl

/-- What stands behind the digits starts with a point or the letter of an exponent, if it is not
empty. -/
theorem IsTail.eq_nil_or {tail : List Char} (h : IsTail tail) :
    tail = [] ∨ ∃ c more, tail = c :: more ∧ (c = '.' ∨ c = 'e' ∨ c = 'E') := by
  cases h with
  | exponent h =>
      cases h with
      | none => exact .inl rfl
      | plain hletter => exact .inr ⟨_, _, rfl, .inr hletter⟩
      | signed hletter => exact .inr ⟨_, _, rfl, .inr hletter⟩
  | point => exact .inr ⟨_, _, rfl, .inl rfl⟩

/-- A number starts with its sign or a digit. -/
theorem IsNumber.eq_cons {literal : List Char} (h : IsNumber literal) :
    ∃ c more, literal = c :: more ∧ (c = '-' ∨ c.isDigit = true) := by
  cases h with
  | positive n =>
      obtain ⟨c, more, heq, hc, -⟩ := Decimal.ofNat_eq_cons n
      exact ⟨c, _, by rw [heq]; rfl, .inr hc⟩
  | negative n => exact ⟨'-', _, rfl, .inl rfl⟩

/-- The first character of a value tells what kind of value it is. -/
def Value.OpensWith : Value → Char → Prop
  | .null, c => c = 'n'
  | .boolean _, c => c = 't' ∨ c = 'f'
  | .number _, c => c = '-' ∨ c.isDigit = true
  | .text _, c => c = '"'
  | .sequence _, c => c = '['
  | .object _, c => c = '\x7b'

/-- A spelling starts, behind its blanks, with a character by which the value can be told. -/
theorem Spells.opensWith {start rest : List Char} {value : Value} (h : Spells start value rest) :
    ∃ c inner, dropBlanks start = c :: inner ∧ value.OpensWith c := by
  cases h with
  | null heq => exact ⟨_, _, heq, rfl⟩
  | boolean value heq =>
      cases value with
      | true => exact ⟨_, _, heq, .inl rfl⟩
      | false => exact ⟨_, _, heq, .inr rfl⟩
  | number hnumber heq =>
      obtain ⟨c, more, rfl, hc⟩ := hnumber.eq_cons
      exact ⟨c, _, heq, hc⟩
  | text heq => exact ⟨_, _, heq, rfl⟩
  | emptySequence heq => exact ⟨_, _, heq, rfl⟩
  | sequence heq => exact ⟨_, _, heq, rfl⟩
  | emptyObject heq => exact ⟨_, _, heq, rfl⟩
  | object heq => exact ⟨_, _, heq, rfl⟩

/-! ## Lengths -/

/-- A string takes its closing quote at least. -/
theorem SpellsText.length_lt {start text rest : List Char} (h : SpellsText start text rest) :
    rest.length < start.length := by
  induction h with
  | close => exact Nat.lt_succ_self _
  | plain _ _ _ _ ih => exact Nat.lt_succ_of_lt ih
  | short _ _ ih => simp only [List.length_cons]; omega
  | unit _ _ _ _ ih => simp only [List.length_cons]; omega
  | units _ _ _ _ _ ih => simp only [List.length_cons]; omega

mutual
/-- A value takes at least one character. -/
theorem Spells.length_lt {start rest : List Char} {value : Value} (h : Spells start value rest) :
    rest.length < start.length := by
  cases h with
  | null heq =>
      have hinner := length_lt_of_dropBlanks heq
      simp only [List.length_cons] at hinner
      omega
  | boolean value heq =>
      have hle := length_dropBlanks_le start
      rw [heq, List.length_append] at hle
      cases value <;> exact Nat.lt_of_lt_of_le (Nat.lt_add_of_pos_left (by decide)) hle
  | number hnumber heq =>
      obtain ⟨c, more, rfl, -⟩ := hnumber.eq_cons
      have hinner := length_lt_of_dropBlanks heq
      simp only [List.append_eq, List.length_append] at hinner
      omega
  | text heq htext => exact htext.length_lt.trans (length_lt_of_dropBlanks heq)
  | emptySequence heq hclose =>
      exact (length_lt_of_dropBlanks hclose).trans (length_lt_of_dropBlanks heq)
  | sequence heq hvalue hvalues =>
      exact (hvalues.length_lt.trans hvalue.length_lt).trans (length_lt_of_dropBlanks heq)
  | emptyObject heq hclose =>
      exact (length_lt_of_dropBlanks hclose).trans (length_lt_of_dropBlanks heq)
  | object heq hmember hmembers =>
      have hopen := length_lt_of_dropBlanks heq
      have hfirst := hmember.length_lt
      have hrest := hmembers.length_add_lt
      omega

/-- The further values of a sequence take the closing bracket at least. -/
theorem SpellsValues.length_lt {start rest : List Char} {values : List Value}
    (h : SpellsValues start values rest) : rest.length < start.length := by
  cases h with
  | close heq => exact length_lt_of_dropBlanks heq
  | value heq hvalue hvalues =>
      exact (hvalues.length_lt.trans hvalue.length_lt).trans (length_lt_of_dropBlanks heq)

/-- A member takes its colon at least. -/
theorem SpellsMember.length_lt {start rest : List Char} {member : String × Value}
    (h : SpellsMember start member rest) : rest.length < start.length := by
  cases h with
  | member heq hname hcolon hvalue =>
      have hname := hname.length_lt.trans (length_lt_of_dropBlanks heq)
      exact (hvalue.length_lt.trans (length_lt_of_dropBlanks hcolon)).trans hname

/-- Each member takes at least one character. -/
theorem SpellsMembers.length_add_lt {start rest : List Char} {members : List (String × Value)}
    (h : SpellsMembers start members rest) : rest.length + members.length < start.length := by
  cases h with
  | close heq => exact length_lt_of_dropBlanks heq
  | member heq hmember hmembers =>
      have hcomma := length_lt_of_dropBlanks heq
      have hfirst := hmember.length_lt
      have hrest := hmembers.length_add_lt
      rw [List.length_cons]
      omega
end

/-! ## Strings are read from their spellings -/

/-- No unit is both the first and the second of two. -/
theorem Text.isTrailing_of_isLeading {unit : Nat} (h : isLeading unit = true) :
    isTrailing unit = false := by
  simp only [isLeading, Bool.and_eq_true, decide_eq_true_eq] at h
  simp only [isTrailing, Bool.and_eq_false_iff, decide_eq_false_iff_not]
  omega

/-- A string is read from each of its spellings. -/
theorem SpellsText.read_eq {start text rest : List Char} (h : SpellsText start text rest) :
    Text.read start = some (text, rest) := by
  induction h with
  | close rest => rw [Text.read]
  | plain hquote hslash hcontrol _ ih =>
      rw [Text.read_cons_of_plain hquote hslash hcontrol, ih]
      rfl
  | @short letter _ _ _ _ hletter _ ih =>
      have hu : letter ≠ 'u' := by
        rintro rfl
        cases hletter
      rw [Text.read_short hu hletter, ih]
      rfl
  | unit hunit hleading htrailing _ ih =>
      simp [Text.read, hunit, hleading, htrailing, ih]
  | units hleading hisLeading htrailing hisTrailing _ ih =>
      have hfirst := Text.isTrailing_of_isLeading hisLeading
      simp [Text.read, hleading, hisLeading, hfirst, htrailing, hisTrailing, ih]

/-! ## What is written is a spelling -/

/-- The text is a spelling of the value, whatever stands behind it. -/
def Writes (text : List Char) (value : Value) : Prop :=
  ∀ rest, Spells (text ++ rest) value rest

/-- What is written is a document of the value. -/
theorem Writes.document {text : List Char} {value : Value} (h : Writes text value) :
    Document (String.ofList text) value := by
  refine ⟨[], ?_, rfl⟩
  have hspells := h []
  rwa [List.append_nil, ← String.toList_ofList (l := text)] at hspells

/-- A character may be spelled as it is written. -/
theorem SpellsText.escape (c : Char) {inner text rest : List Char}
    (h : SpellsText inner text rest) : SpellsText (Text.escape c ++ inner) (c :: text) rest := by
  have hc := Text.escapedAs_escape c
  generalize Text.escape c = written at hc ⊢
  cases hc with
  | short _ hletter => exact .short hletter h
  | control hlt =>
      obtain ⟨hleading, htrailing⟩ := Text.isLeading_isTrailing_eq_false hlt
      have hunit := SpellsText.unit (Text.unit?_control _ hlt) hleading htrailing h
      rwa [Char.ofNat_toNat] at hunit
  | plain hquote hslash hcontrol => exact .plain hquote hslash hcontrol h

/-- A string may be spelled as it is written. -/
theorem spellsText_flatMap_escape (text rest : List Char) :
    SpellsText (text.flatMap Text.escape ++ '"' :: rest) text rest := by
  induction text with
  | nil => exact .close rest
  | cons c text ih =>
      rw [List.flatMap_cons, List.append_assoc]
      exact ih.escape c

/-- A string is written in one of its spellings. -/
theorem writes_text (s : String) : Writes (Writer.text s) (.text s) := by
  intro rest
  exact .text (dropBlanks_text_append s rest) (spellsText_flatMap_escape s.toList rest)

/-- A natural number is written in one of its spellings. -/
theorem writes_natural (n : Nat) : Writes (Writer.integer n) (.natural n) := by
  intro rest
  have hnumber : IsNumber (Decimal.ofNat n ++ []) := .positive n (.exponent .none)
  rw [List.append_nil] at hnumber
  exact .number hnumber ((opens_integer n).dropBlanks_append rest)

variable {parts : List (String × List Char)} {members : List (String × Value)}

/-- A member is written as its value is. -/
def WritesMember (part : String × List Char) (member : String × Value) : Prop :=
  part.1 = member.1 ∧ Writes part.2 member.2

/-- A member is written in one of its spellings if its value is. -/
theorem Writes.member {text : List Char} {value : Value} (h : Writes text value) (name : String) :
    WritesMember (name, text) (name, value) :=
  ⟨rfl, h⟩

/-- A written member is a spelling of it, whatever stands behind. -/
theorem WritesMember.spellsMember {part : String × List Char} {member : String × Value}
    (h : WritesMember part member) (rest : List Char) :
    SpellsMember (Writer.member part.1 part.2 ++ rest) member rest := by
  obtain ⟨name, text⟩ := part
  obtain ⟨_, value⟩ := member
  obtain ⟨rfl, htext⟩ := h
  have heq : Writer.member name text ++ rest =
      '"' :: (name.toList.flatMap Text.escape ++ '"' :: ':' :: (text ++ rest)) := by
    simp [Writer.member, Writer.text, Text.write]
  rw [heq]
  exact .member rfl (spellsText_flatMap_escape name.toList _) rfl (htext rest)

/-- The further members of an object are written in one of their spellings. -/
theorem spellsMembers_following (h : List.Forall₂ WritesMember parts members) (rest : List Char) :
    SpellsMembers (following (writeMembers parts) ++ '\x7d' :: rest) members rest := by
  induction h with
  | nil => exact .close rfl
  | cons hfirst _ ih =>
      rw [writeMembers, List.map_cons, following, List.flatMap_cons, List.append_assoc]
      exact .member rfl (hfirst.spellsMember _) ih

/-- An object is written in one of its spellings if its members are. -/
theorem writes_object (h : List.Forall₂ WritesMember parts members) :
    Writes (Writer.object parts) (.object members) := by
  intro rest
  have htext : Writer.object parts ++ rest =
      '\x7b' :: (Writer.separated (writeMembers parts) ++ '\x7d' :: rest) := by
    simp [Writer.object, writeMembers]
  rw [htext]
  cases h with
  | nil => exact .emptyObject rfl rfl
  | cons hfirst hrest =>
      rw [writeMembers, List.map_cons, separated_cons, List.append_assoc]
      exact .object rfl (hfirst.spellsMember _) (spellsMembers_following hrest rest)

end VaultBatch.Json
