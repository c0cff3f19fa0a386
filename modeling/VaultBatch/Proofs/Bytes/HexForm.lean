import VaultBatch.Batch.Json
import VaultBatch.Proofs.Bytes.Hex
import VaultBatch.Proofs.Descriptor
import VaultBatch.Proofs.Json.Decoding
import VaultBatch.Proofs.PackedInstruction

/-!
# Values in hexadecimal form

`Hex.Form` says which texts a value of a fixed width is read from: those with two digits for each
byte behind at most one mark. Texts give the same value exactly if their digits agree up to their
case, and one of these texts is written for it. `hex_forms_canonical` says so for addresses,
descriptors and packed instructions, which differ in their marks and widths and in how they report
what they refuse.
-/

namespace VaultBatch

namespace Hex

/-- The second text is the first one without the mark that it starts with, if it starts with one. -/
inductive Unmarked (marks : List String) : List Char → List Char → Prop where
  | marked {mark : String} (digits : List Char) :
      mark ∈ marks → Unmarked marks (mark.toList ++ digits) digits
  | plain {text : List Char} :
      (∀ mark ∈ marks, ¬ mark.toList <+: text) → Unmarked marks text text

/-- Every text can be taken without its mark. -/
theorem exists_unmarked (marks : List String) (text : List Char) :
    ∃ digits, Unmarked marks text digits := by
  by_cases h : ∃ mark ∈ marks, mark.toList <+: text
  · obtain ⟨mark, hmark, digits, rfl⟩ := h
    exact ⟨digits, .marked digits hmark⟩
  · exact ⟨text, .plain fun mark hmark hprefix => h ⟨mark, hmark, hprefix⟩⟩

/-- Dropping a mark in lower case leaves the text without its mark. -/
theorem Unmarked.dropMark_eq {text digits : List Char} (h : Unmarked ["0x"] text digits) :
    dropMark text = digits := by
  cases h with
  | marked _ hmark =>
      rw [List.mem_singleton.1 hmark]
      rfl
  | plain hnone =>
      unfold dropMark
      split
      · exact absurd (List.prefix_append "0x".toList _) (hnone "0x" (by simp))
      · rfl

/-- Dropping a mark of either case leaves the text without its mark. -/
theorem Unmarked.dropAnyMark_eq {text digits : List Char} (h : Unmarked ["0x", "0X"] text digits) :
    dropAnyMark text = digits := by
  cases h with
  | marked _ hmark =>
      rcases List.mem_pair.1 hmark with rfl | rfl <;> rfl
  | plain hnone =>
      unfold dropAnyMark
      split
      · exact absurd (List.prefix_append "0x".toList _) (hnone "0x" (by simp))
      · exact absurd (List.prefix_append "0X".toList _) (hnone "0X" (by simp))
      · rfl

/-- The text without its mark of either case is what dropping the mark leaves. -/
theorem unmarked_iff {text digits : List Char} :
    Unmarked ["0x", "0X"] text digits ↔ dropAnyMark text = digits := by
  constructor
  · intro h
    exact h.dropAnyMark_eq
  · intro h
    obtain ⟨others, hothers⟩ := exists_unmarked ["0x", "0X"] text
    rw [← h, hothers.dropAnyMark_eq]
    exact hothers

variable {α ε : Type} {marks : List String} {width : Nat} {bytes : α → Bytes width}
  {make : Bytes width → α} {parse : String → Except ε α} {hex : α → String}
  {flawed : String → Flaw → ε} {otherWidth : String → Nat → ε}

/-- What is read from digits of a width, and how other digits are refused. -/
def readValue (make : Bytes width → α) (flawed : Flaw → ε) (otherWidth : Nat → ε)
    (digits : List Char) : Except ε α :=
  match decode digits with
  | .error flaw => .error (flawed flaw)
  | .ok bytes =>
    match Bytes.ofList? width bytes with
    | some own => .ok (make own)
    | none => .error (otherWidth bytes.length)

/-- Values of a fixed width are read from their digits in pairs behind at most one of some marks,
and written in lower case behind the mark `0x`. -/
structure Form (marks : List String) (bytes : α → Bytes width) (parse : String → Except ε α)
    (hex : α → String) (flawed : String → Flaw → ε) (otherWidth : String → Nat → ε) : Prop where
  /-- Exactly as many digits as the width needs are accepted. -/
  accepts {text : String} {digits : List Char} : Unmarked marks text.toList digits →
    ((∃ value, parse text = .ok value) ↔ digits.length = 2 * width ∧ ∀ c ∈ digits, IsDigit c)
  /-- The digits are those of the bytes, in the same order. -/
  pairs {text : String} {digits : List Char} {value : α} : Unmarked marks text.toList digits →
    parse text = .ok value → Pairs digits (bytes value).toList
  /-- What is read is written with its digits in lower case. -/
  hex_eq {text : String} {digits : List Char} {value : α} : Unmarked marks text.toList digits →
    parse text = .ok value → hex value = String.ofList ('0' :: 'x' :: digits.map Char.toLower)
  /-- What is written is read back. -/
  parse_hex (value : α) : parse (hex value) = .ok value
  /-- Digits are read as the same value exactly if they agree up to their case. -/
  eq_iff {text other : String} {digits others : List Char} {value result : α} :
    Unmarked marks text.toList digits → Unmarked marks other.toList others →
    parse text = .ok value → parse other = .ok result →
    (value = result ↔ digits.map Char.toLower = others.map Char.toLower)
  /-- A text is refused for what is no digits in pairs, or else for digits of another width. -/
  rejects {text : String} {digits : List Char} {error : ε} : Unmarked marks text.toList digits →
    (parse text = .error error ↔
      (∃ flaw, Flawed digits flaw ∧ error = flawed text flaw) ∨
        (digits.length % 2 = 0 ∧ ∀ c ∈ digits, IsDigit c) ∧ digits.length ≠ 2 * width ∧
          error = otherWidth text (digits.length / 2))

section
variable {digits : List Char} {flawed : Flaw → ε} {otherWidth : Nat → ε}

/-- A value is read exactly from the digits of its bytes, two for each. -/
theorem readValue_eq_ok_iff {value : α} :
    readValue make flawed otherWidth digits = .ok value ↔
      ∃ own : Bytes width, Pairs digits own.toList ∧ make own = value := by
  simp only [← decode_eq_ok_iff, readValue]
  cases decode digits with
  | error flaw => simp
  | ok read =>
      simp only [Except.ok.injEq, ← Bytes.ofList?_eq_some_iff]
      cases Bytes.ofList? width read <;> simp

/-- Digits are refused for what is wrong with them, or else for their number. -/
theorem readValue_eq_error_iff {error : ε} :
    readValue make flawed otherWidth digits = .error error ↔
      (∃ flaw, Flawed digits flaw ∧ error = flawed flaw) ∨
        (digits.length % 2 = 0 ∧ ∀ c ∈ digits, IsDigit c) ∧ digits.length ≠ 2 * width ∧
          error = otherWidth (digits.length / 2) := by
  simp only [← decode_eq_error_iff, ← exists_pairs_iff, ← decode_eq_ok_iff, readValue]
  cases hread : decode digits with
  | error flaw => simp [eq_comm]
  | ok read =>
      have hlength := (decode_eq_ok_iff.1 hread).length_eq
      have hwidth : digits.length ≠ 2 * width ↔ read.length ≠ width := by omega
      have hhalf : digits.length / 2 = read.length := by omega
      rw [hwidth, hhalf]
      unfold Bytes.ofList?
      by_cases h : read.length = width
      · simp [h]
      · simp [h, eq_comm]

end

/-- Digits of the width are read, whatever bytes they stand for. -/
theorem exists_pairs_width_iff {digits : List Char} :
    (∃ own : Bytes width, Pairs digits own.toList) ↔
      digits.length = 2 * width ∧ ∀ c ∈ digits, IsDigit c := by
  constructor
  · rintro ⟨own, hpairs⟩
    exact ⟨by rw [hpairs.length_eq, own.length_toList], (exists_pairs_iff.1 ⟨_, hpairs⟩).2⟩
  · rintro ⟨hlength, hdigits⟩
    obtain ⟨read, hpairs⟩ := exists_pairs_iff.2 ⟨by omega, hdigits⟩
    have hwidth := hpairs.length_eq
    exact ⟨⟨read, by omega⟩, hpairs⟩

/-- A reader that hands the text behind the mark on to `readValue` and a writer that writes all
bytes behind the mark `0x` are a form. -/
theorem Form.of_readValue (hmark : "0x" ∈ marks) (hbytes : ∀ own, bytes (make own) = own)
    (hmake : ∀ value, make (bytes value) = value)
    (hparse : ∀ {text digits}, Unmarked marks text.toList digits →
      parse text = readValue make (flawed text) (otherWidth text) digits)
    (hhex : ∀ value, hex value = String.ofList (encodeMarked (bytes value).toList)) :
    Form marks bytes parse hex flawed otherWidth := by
  have hok : ∀ {text : String} {digits : List Char} {value : α},
      Unmarked marks text.toList digits →
      (parse text = .ok value ↔ Pairs digits (bytes value).toList) := by
    intro text digits value h
    rw [hparse h, readValue_eq_ok_iff]
    constructor
    · rintro ⟨own, hpairs, rfl⟩
      rwa [hbytes]
    · exact fun hpairs => ⟨_, hpairs, hmake value⟩
  have hlower : ∀ {text : String} {digits : List Char} {value : α},
      Unmarked marks text.toList digits → parse text = .ok value →
      digits.map Char.toLower = encode (bytes value).toList :=
    fun h hvalue => pairs_iff.1 ((hok h).1 hvalue)
  have hwritten : ∀ value, Unmarked marks (hex value).toList (encode (bytes value).toList) := by
    intro value
    rw [hhex, String.toList_ofList]
    exact .marked _ hmark
  refine { accepts := fun {text digits} h => ?accepts, pairs := fun h => (hok h).1,
           hex_eq := fun h hvalue => ?hex_eq, parse_hex := fun value => ?parse_hex,
           eq_iff := fun {_ _ _ _ value result} h hother hvalue hresult => ?eq_iff,
           rejects := fun h => by rw [hparse h, readValue_eq_error_iff] }
  case accepts =>
    rw [← exists_pairs_width_iff]
    constructor
    · rintro ⟨value, hvalue⟩
      exact ⟨_, (hok h).1 hvalue⟩
    · rintro ⟨own, hpairs⟩
      exact ⟨make own, (hok h).2 (by rwa [hbytes])⟩
  case hex_eq =>
    rw [hlower h hvalue, hhex]
    rfl
  case parse_hex =>
    exact (hok (hwritten value)).2 (decode_eq_ok_iff.1 (decode_encode _))
  case eq_iff =>
    rw [hlower h hvalue, hlower hother hresult]
    constructor
    · rintro rfl
      rfl
    · intro heq
      -- what is written alike is read back alike
      have hread := decode_encode (bytes value).toList
      rw [heq, decode_encode] at hread
      rw [← hmake value, ← hmake result, Bytes.ext (Except.ok.inj hread)]

end Hex

/-! ## Addresses, descriptors and packed instructions -/

/-- An address is read as a value of 20 bytes behind a mark of either case. -/
theorem Address.parse_eq_readValue {text : String} {digits : List Char}
    (h : Hex.Unmarked ["0x", "0X"] text.toList digits) :
    parse text = Hex.readValue Address.mk (fun flaw => .malformed .address text (.hex flaw))
      (fun count => .malformed .address text (.width 20 count)) digits := by
  rw [parse, h.dropAnyMark_eq, Hex.readValue]
  cases Hex.decode digits with
  | error flaw => rfl
  | ok read => cases hown : Bytes.ofList? width read <;> simp [hown]

/-- A descriptor is read as a value of 36 bytes behind a mark in lower case. -/
theorem Descriptor.parse_eq_readValue {text : String} {digits : List Char}
    (h : Hex.Unmarked ["0x"] text.toList digits) :
    parse text = Hex.readValue Descriptor.mk
      (fun flaw => .encoding (.malformed .descriptor text (.hex flaw)))
      (fun count => .invalidLength .descriptor count) digits := by
  rw [parse, h.dropMark_eq, Hex.readValue]
  cases Hex.decode digits with
  | error flaw => rfl
  | ok read => cases hown : Bytes.ofList? width read <;> simp [ofList, Layout.read, hown]

/-- A packed instruction is read as a value of 32 bytes behind a mark in lower case. -/
theorem PackedInstruction.parse_eq_readValue {text : String} {digits : List Char}
    (h : Hex.Unmarked ["0x"] text.toList digits) :
    parse text = Hex.readValue PackedInstruction.mk .hex
      (fun count => .bytes (.invalidLength .instruction count)) digits := by
  rw [parse, h.dropMark_eq, Hex.readValue]
  cases Hex.decode digits with
  | error flaw => rfl
  | ok read =>
      cases hown : Bytes.ofList? width read <;>
        simp [ofList, Layout.read, hown, Except.mapError]

/-- A packed instruction is read from the spellings of its texts, and from nothing else. -/
theorem PackedInstruction.readJson_decodes (value : Json.Value) :
    readJson.Decodes (Json.Spells · value ·)
      (value.text?.bind fun text => (parse text).toOption) :=
  Json.checkedString_mapError_decodes parse .instruction value

/-- Addresses, descriptors and packed instructions are read from 40, 72 and 64 digits behind at most
one mark, which may have a capital letter for addresses only, and written in their form. Else an
address is malformed, and the others are if there is a byte that is no digit or an odd number of
them, but have the wrong length if there is only another number of digits. A packed instruction is
read from a string in JSON as it is from the text. -/
theorem hex_forms_canonical :
    (∀ marks text, ∃ digits, Hex.Unmarked marks text digits) ∧
    Hex.Form ["0x", "0X"] Address.bytes Address.parse Address.hex
      (fun text flaw => .malformed .address text (.hex flaw))
      (fun text count => .malformed .address text (.width 20 count)) ∧
    Hex.Form ["0x"] Descriptor.bytes Descriptor.parse Descriptor.hex
      (fun text flaw => .encoding (.malformed .descriptor text (.hex flaw)))
      (fun _ count => .invalidLength .descriptor count) ∧
    Hex.Form ["0x"] PackedInstruction.bytes PackedInstruction.parse PackedInstruction.hex
      (fun _ flaw => .hex flaw) (fun _ count => .bytes (.invalidLength .instruction count)) ∧
    (∀ digits, (∃ flaw, Hex.Flawed digits flaw) ↔
      (Hex.utf8 digits).length % 2 = 1 ∨ ∃ byte ∈ Hex.utf8 digits, ¬ Hex.IsDigitByte byte) ∧
    ∀ document text, Json.Document document (.text text) → ∀ packed,
      Json.parse PackedInstruction.readJson document = .ok packed ↔
        PackedInstruction.parse text = .ok packed := by
  refine ⟨Hex.exists_unmarked, ?_, ?_, ?_, fun _ => Hex.exists_flawed_iff, ?_⟩
  · exact .of_readValue (by simp) (fun _ => rfl) (fun _ => rfl) Address.parse_eq_readValue
      fun _ => rfl
  · exact .of_readValue (by simp) (fun _ => rfl) (fun _ => rfl) Descriptor.parse_eq_readValue
      fun _ => rfl
  · exact .of_readValue (by simp) (fun _ => rfl) (fun _ => rfl)
      PackedInstruction.parse_eq_readValue fun _ => rfl
  · intro document text h packed
    rw [Json.parse_eq_ok_iff (PackedInstruction.readJson_decodes _) h, Json.Value.text?,
      Option.bind_some, toOption_eq_some_iff]

/-- A mark with a capital letter is one for addresses, but for packed instructions it is two more
characters. -/
theorem hex_forms_canonical_capitals :
    (∃ address, Address.parse (String.ofList ('0' :: 'X' :: List.replicate 40 'F')) =
        .ok address) ∧
      (¬ ∃ packed, Json.parse PackedInstruction.readJson
        (String.ofList (Json.Writer.text
          (String.ofList ('0' :: 'X' :: List.replicate 64 'F')))) = .ok packed) := by
  obtain ⟨-, haddress, -, hpacked, -, hjson⟩ := hex_forms_canonical
  constructor
  · have hmarked : Hex.Unmarked ["0x", "0X"]
        (String.ofList ('0' :: 'X' :: List.replicate 40 'F')).toList (List.replicate 40 'F') := by
      have hmark : "0X" ∈ ["0x", "0X"] := by simp
      rw [String.toList_ofList]
      exact .marked _ hmark
    refine (haddress.accepts hmarked).2 ⟨List.length_replicate, fun c hc => ?_⟩
    rw [List.eq_of_mem_replicate hc]
    decide
  · simp only [hjson _ _ (Json.writes_text _).document]
    have hplain : Hex.Unmarked ["0x"]
        (String.ofList ('0' :: 'X' :: List.replicate 64 'F')).toList
        ('0' :: 'X' :: List.replicate 64 'F') := by
      rw [String.toList_ofList]
      refine .plain fun mark hmark => ?_
      rw [List.mem_singleton.1 hmark]
      decide
    exact fun h => absurd ((hpacked.accepts hplain).1 h).1 (by decide)

end VaultBatch
