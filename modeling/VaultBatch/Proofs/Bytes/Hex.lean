import Mathlib.Data.List.Induction
import VaultBatch.Bytes.Hex
import VaultBatch.Proofs.Fault
import VaultBatch.Text.Blank

/-!
# Texts that are hexadecimal digits

A text is read as bytes exactly if its characters, two by two, are the digits of them in order
(`Hex.decode_eq_ok_iff`). Otherwise it has an odd number of bytes itself, or the first of them that
is no digit is reported (`Hex.decode_eq_error_iff`); a character that is not ASCII has no byte that
is one.
-/

namespace VaultBatch.Hex

/-- The sixteen digits in lower case. -/
def digits : List Char := "0123456789abcdef".toList

/-- A digit, of either case, stands for its place among the sixteen. -/
def Stands (c : Char) (n : Nat) : Prop :=
  digits[n]? = some c.toLower

/-- A hexadecimal digit of either case. -/
def IsDigit (c : Char) : Prop :=
  c.toLower ∈ digits

instance (c : Char) : Decidable (IsDigit c) :=
  inferInstanceAs (Decidable (_ ∈ digits))

/-- Two digits for each byte, in the order of the bytes. -/
inductive Pairs : List Char → List UInt8 → Prop where
  | nil : Pairs [] []
  | cons {high low : Char} {byte : UInt8} {text : List Char} {bytes : List UInt8} :
      Stands high (byte.toNat / 16) → Stands low (byte.toNat % 16) → Pairs text bytes →
      Pairs (high :: low :: text) (byte :: bytes)

/-- A byte that is an ASCII digit. -/
def IsDigitByte (byte : UInt8) : Prop :=
  IsDigit (Char.ofNat byte.toNat)

/-- The flaw is the first byte that is no digit, the bytes starting at a position. -/
inductive FirstInvalid : Nat → List UInt8 → Flaw → Prop where
  | here {position : Nat} {byte : UInt8} {rest : List UInt8} :
      ¬ IsDigitByte byte → FirstInvalid position (byte :: rest) (.invalidDigit byte position)
  | later {position : Nat} {byte : UInt8} {rest : List UInt8} {flaw : Flaw} :
      IsDigitByte byte → FirstInvalid (position + 1) rest flaw →
      FirstInvalid position (byte :: rest) flaw

/-- Why a text is no digits in pairs: it has an odd number of bytes, or else one is no digit. -/
inductive Flawed (text : List Char) : Flaw → Prop where
  | oddLength : (utf8 text).length % 2 = 1 → Flawed text .oddLength
  | invalidDigit {flaw : Flaw} :
      (utf8 text).length % 2 = 0 → FirstInvalid 0 (utf8 text) flaw → Flawed text flaw

variable {c : Char} {n position : Nat} {byte : UInt8} {text : List Char} {bytes rest : List UInt8}
  {flaw : Flaw}

/-! ## Digits -/

/-- A digit stands for a number below sixteen. -/
theorem Stands.lt (h : Stands c n) : n < 16 :=
  (List.getElem?_eq_some_iff.1 h).1

/-- The places of the sixteen digits are what they are written for. -/
theorem stands_iff (h : n < 16) : Stands c n ↔ c.toLower = digit n := by
  have hdigits : ∀ n < 16, digits[n]? = some (digit n) := by decide
  rw [Stands, hdigits n h, Option.some.injEq, eq_comm]

/-- A character is a digit exactly if it stands for a number. -/
theorem isDigit_iff : IsDigit c ↔ ∃ n, Stands c n :=
  List.mem_iff_getElem?

/-- A digit is an ASCII character. -/
theorem Stands.toNat_lt (h : Stands c n) : c.toNat < 128 := by
  have hdigits : ∀ n < 16, (digit n).toNat < 128 := by decide
  have hc := hdigits n h.lt
  rw [← (stands_iff h.lt).1 h] at hc
  delta Char.toLower at hc
  split at hc
  · next hupper => exact Nat.lt_of_le_of_lt (UInt32.le_iff_toNat_le.1 hupper.2) (by decide)
  · exact hc

/-- Among the ASCII characters, digits are read as the places of their lower case in the table. -/
theorem value?_ascii_iff : ∀ n < 128, ∀ value < 16,
    Digit.value? 16 (Char.ofNat n) = some value ↔ digits[value]? = some (Char.ofNat n).toLower := by
  decide +kernel

/-- A character that is not ASCII is no digit. -/
theorem value?_not_ascii (h : 128 ≤ c.toNat) : Digit.value? 16 c = none := by
  simp only [Digit.value?]
  rw [if_neg (by omega), if_neg (by omega), if_neg (by omega)]
  rfl

/-- Digits are read as what they stand for, and nothing else is read. -/
theorem value?_eq_some_iff : Digit.value? 16 c = some n ↔ Stands c n := by
  by_cases hn : n < 16
  · by_cases hc : c.toNat < 128
    · have h := value?_ascii_iff c.toNat hc n hn
      rwa [Char.ofNat_toNat] at h
    · rw [value?_not_ascii (by omega)]
      exact iff_of_false nofun fun h => hc h.toNat_lt
  · exact iff_of_false (fun h => hn (Digit.lt_of_value?_eq_some h)) fun h => hn h.lt

/-- A byte is read as what the character of that code stands for. -/
theorem digitValue?_eq_some_iff :
    digitValue? byte = some n ↔ Stands (Char.ofNat byte.toNat) n :=
  value?_eq_some_iff

/-- A byte is a digit exactly if it is read as a number. -/
theorem isDigitByte_iff : IsDigitByte byte ↔ ∃ n, digitValue? byte = some n := by
  simp only [IsDigitByte, isDigit_iff, digitValue?_eq_some_iff]

/-! ## The bytes of digits -/

/-- The bytes of a text are those of its first character and then those of the rest. -/
theorem utf8_cons (c : Char) (text : List Char) :
    utf8 (c :: text) = String.utf8EncodeChar c ++ utf8 text :=
  List.flatMap_cons

/-- Only the empty text has no bytes. -/
theorem utf8_eq_nil_iff : utf8 text = [] ↔ text = [] := by
  cases text <;> simp [utf8, String.utf8EncodeChar_ne_nil]

/-- An ASCII character is one byte, its code. -/
theorem utf8EncodeChar_ascii (h : c.toNat < 128) :
    String.utf8EncodeChar c = [UInt8.ofNat c.toNat] := by
  have hc : c.val.toNat ≤ 127 := Nat.le_of_lt_succ h
  simp only [String.utf8EncodeChar, hc, if_true]
  rfl

/-- No byte of a character is ASCII if the character is not. -/
theorem le_toNat_of_mem_utf8EncodeChar (h : 128 ≤ c.toNat) :
    ∀ byte ∈ String.utf8EncodeChar c, 128 ≤ byte.toNat := by
  have hc : ¬ c.val.toNat ≤ 127 := Nat.not_le.2 h
  simp only [String.utf8EncodeChar, if_neg hc]
  -- two, three or four bytes
  split
  · simp only [List.mem_cons, List.not_mem_nil, or_false, forall_eq_or_imp, forall_eq,
      UInt8.toNat_ofNat']
    omega
  · split <;>
      simp only [List.mem_cons, List.not_mem_nil, or_false, forall_eq_or_imp, forall_eq,
        UInt8.toNat_ofNat'] <;> omega

/-- The character of a byte has the byte as its code. -/
theorem toNat_ofNat_toNat (byte : UInt8) : (Char.ofNat byte.toNat).toNat = byte.toNat := by
  have hbyte := byte.toNat_lt
  rw [Char.ofNat, dif_pos (show byte.toNat.isValidChar from .inl (by omega))]
  rfl

/-- An ASCII character is the character of the byte of its code. -/
theorem ofNat_toNat_ascii (h : c.toNat < 128) : Char.ofNat (UInt8.ofNat c.toNat).toNat = c := by
  rw [UInt8.toNat_ofNat_of_lt' (Nat.lt_trans h (by decide)), Char.ofNat_toNat]

/-- A digit is one byte, which is read as what the digit stands for. -/
theorem utf8_cons_of_stands (h : Stands c n) (text : List Char) :
    ∃ byte, utf8 (c :: text) = byte :: utf8 text ∧ digitValue? byte = some n := by
  refine ⟨UInt8.ofNat c.toNat, by rw [utf8_cons, utf8EncodeChar_ascii h.toNat_lt]; rfl, ?_⟩
  rwa [digitValue?_eq_some_iff, ofNat_toNat_ascii h.toNat_lt]

/-- A byte that is read as a digit is all of a character, which is the digit. -/
theorem eq_cons_of_utf8_eq_cons (h : utf8 text = byte :: rest) (hbyte : digitValue? byte = some n) :
    ∃ c tail, text = c :: tail ∧ Stands c n ∧ rest = utf8 tail := by
  have hdigit := digitValue?_eq_some_iff.1 hbyte
  cases text with
  | nil => cases h
  | cons c tail =>
      rw [utf8_cons] at h
      by_cases hc : c.toNat < 128
      · rw [utf8EncodeChar_ascii hc] at h
        cases h
        exact ⟨c, tail, rfl, ofNat_toNat_ascii hc ▸ hdigit, rfl⟩
      · -- the first byte of any other character is not ASCII either
        have hascii := hdigit.toNat_lt
        have hmem : byte ∈ String.utf8EncodeChar c := by
          cases hencode : String.utf8EncodeChar c with
          | nil => exact absurd hencode String.utf8EncodeChar_ne_nil
          | cons first others =>
              rw [hencode] at h
              cases h
              exact List.mem_cons_self
        have hlow := le_toNat_of_mem_utf8EncodeChar (by omega) byte hmem
        rw [toNat_ofNat_toNat] at hascii
        omega

/-! ## Reading pairs -/

/-- A byte is read as a digit wherever it stands. -/
theorem readDigit_eq_ok_iff : readDigit position byte = .ok n ↔ digitValue? byte = some n := by
  unfold readDigit
  cases digitValue? byte <;> simp

/-- A byte is refused, with its position, exactly if it is no digit. -/
theorem readDigit_eq_error_iff :
    readDigit position byte = .error flaw ↔
      ¬ IsDigitByte byte ∧ flaw = .invalidDigit byte position := by
  rw [isDigitByte_iff]
  unfold readDigit
  cases digitValue? byte <;> simp [eq_comm]

/-- The values of the two digits of a byte give it back. -/
theorem halves_iff {high low : Nat} (hhigh : high < 16) (hlow : low < 16) :
    byte = UInt8.ofNat (16 * high + low) ↔ byte.toNat / 16 = high ∧ byte.toNat % 16 = low := by
  have hround : (UInt8.ofNat (16 * high + low)).toNat = 16 * high + low :=
    UInt8.toNat_ofNat_of_lt' (show _ < 256 by omega)
  rw [← UInt8.toNat_inj, hround]
  omega

/-- Bytes are read exactly from the digits of them in pairs. -/
theorem decodePairs_utf8_eq_ok_iff :
    decodePairs position (utf8 text) = .ok bytes ↔ Pairs text bytes := by
  constructor
  · intro h
    -- the induction is on the bytes that are read, of which each must turn out to be a character
    generalize hread : utf8 text = read at h
    induction position, read using decodePairs.induct generalizing text bytes with
    | case1 position =>
        cases h
        rw [utf8_eq_nil_iff.1 hread]
        exact .nil
    | case2 position byte => cases h
    | case3 position high low rest ih =>
        rw [decodePairs] at h
        simp only [bind_eq_ok_iff, readDigit_eq_ok_iff] at h
        obtain ⟨m, hhigh, n, hlow, tail, htail, h⟩ := h
        cases h
        obtain ⟨c, text, rfl, hc, hrest⟩ := eq_cons_of_utf8_eq_cons hread hhigh
        obtain ⟨d, text, rfl, hd, hrest⟩ := eq_cons_of_utf8_eq_cons hrest.symm hlow
        obtain ⟨hm, hn⟩ := (halves_iff hc.lt hd.lt).1 rfl
        exact .cons (by rwa [hm]) (by rwa [hn]) (ih hrest.symm htail)
  · intro h
    induction h generalizing position with
    | nil => rfl
    | @cons c d byte text bytes hc hd _ ih =>
        obtain ⟨high, hhigh, hhighValue⟩ := utf8_cons_of_stands hc (d :: text)
        obtain ⟨low, hlow, hlowValue⟩ := utf8_cons_of_stands hd text
        have hbyte : byte = UInt8.ofNat (16 * (byte.toNat / 16) + byte.toNat % 16) :=
          (halves_iff hc.lt hd.lt).2 ⟨rfl, rfl⟩
        rw [hhigh, hlow, decodePairs]
        simp only [bind_eq_ok_iff, readDigit_eq_ok_iff]
        exact ⟨_, hhighValue, _, hlowValue, _, ih, hbyte ▸ rfl⟩

/-- There are two digits for each byte. -/
theorem Pairs.length_eq (h : Pairs text bytes) : text.length = 2 * bytes.length := by
  induction h with
  | nil => rfl
  | cons _ _ _ ih =>
      simp only [List.length_cons, ih]
      omega

/-- Digits are as many bytes as characters. -/
theorem length_utf8 (h : ∀ c ∈ text, IsDigit c) : (utf8 text).length = text.length := by
  induction text with
  | nil => rfl
  | cons c text ih =>
      obtain ⟨hc, htext⟩ := List.forall_mem_cons.1 h
      obtain ⟨n, hn⟩ := isDigit_iff.1 hc
      rw [utf8_cons, utf8EncodeChar_ascii hn.toNat_lt, List.length_append, ih htext,
        List.length_singleton, List.length_cons, Nat.add_comm]

/-- A text is digits in pairs exactly if it has an even number of characters, all of them digits. -/
theorem exists_pairs_iff :
    (∃ bytes, Pairs text bytes) ↔ text.length % 2 = 0 ∧ ∀ c ∈ text, IsDigit c := by
  constructor
  · rintro ⟨bytes, h⟩
    refine ⟨by rw [h.length_eq]; omega, ?_⟩
    induction h with
    | nil => simp
    | cons hhigh hlow _ ih =>
        simp only [List.forall_mem_cons]
        exact ⟨isDigit_iff.2 ⟨_, hhigh⟩, isDigit_iff.2 ⟨_, hlow⟩, ih⟩
  · rintro ⟨heven, hdigits⟩
    induction text using List.twoStepInduction with
    | nil => exact ⟨[], .nil⟩
    | singleton c => cases heven
    | cons_cons c d text ih _ =>
        simp only [List.forall_mem_cons] at hdigits
        obtain ⟨hc, hd, hdigits⟩ := hdigits
        obtain ⟨high, hhigh⟩ := isDigit_iff.1 hc
        obtain ⟨low, hlow⟩ := isDigit_iff.1 hd
        simp only [List.length_cons] at heven
        obtain ⟨bytes, hbytes⟩ := ih (by omega) hdigits
        obtain ⟨h, l⟩ := (halves_iff hhigh.lt hlow.lt).1 rfl
        exact ⟨_, .cons (by rwa [h]) (by rwa [l]) hbytes⟩

/-- The digits of bytes in pairs are, in lower case, what the bytes are written as. -/
theorem pairs_iff : Pairs text bytes ↔ Text.lowerAscii text = encode bytes := by
  constructor
  · intro h
    induction h with
    | nil => rfl
    | cons hhigh hlow _ ih =>
        rw [encode_cons, ← ih, encodeByte, ← (stands_iff hhigh.lt).1 hhigh,
          ← (stands_iff hlow.lt).1 hlow]
        rfl
  · intro h
    induction bytes generalizing text with
    | nil =>
        rw [List.map_eq_nil_iff.1 h]
        exact .nil
    | cons byte bytes ih =>
        obtain ⟨c, tail, rfl, hc, htail⟩ := List.map_eq_cons_iff.1 h
        obtain ⟨d, text, rfl, hd, htext⟩ := List.map_eq_cons_iff.1 htail
        have hbyte := byte.toNat_lt
        exact .cons ((stands_iff (by omega)).2 hc) ((stands_iff (by omega)).2 hd) (ih htext)

/-! ## What is no digit -/

/-- The first byte that is no digit is the one in front, or else the first of the rest. -/
theorem firstInvalid_cons :
    FirstInvalid position (byte :: rest) flaw ↔
      ¬ IsDigitByte byte ∧ flaw = .invalidDigit byte position ∨
        IsDigitByte byte ∧ FirstInvalid (position + 1) rest flaw := by
  constructor
  · intro h
    cases h with
    | here hbyte => exact .inl ⟨hbyte, rfl⟩
    | later hbyte h => exact .inr ⟨hbyte, h⟩
  · rintro (⟨hbyte, rfl⟩ | ⟨hbyte, h⟩)
    · exact .here hbyte
    · exact .later hbyte h

/-- There is a first byte that is no digit exactly if there is one at all. -/
theorem exists_firstInvalid_iff :
    (∃ flaw, FirstInvalid position bytes flaw) ↔ ∃ byte ∈ bytes, ¬ IsDigitByte byte := by
  induction bytes generalizing position with
  | nil => exact iff_of_false nofun nofun
  | cons byte rest ih =>
      by_cases hbyte : IsDigitByte byte
      · simp [firstInvalid_cons, hbyte, ih]
      · exact iff_of_true ⟨_, .here hbyte⟩ ⟨byte, List.mem_cons_self, hbyte⟩

/-- Pairs of bytes are refused exactly for the first byte that is no digit. -/
theorem decodePairs_eq_error_iff (heven : bytes.length % 2 = 0) :
    decodePairs position bytes = .error flaw ↔ FirstInvalid position bytes flaw := by
  induction position, bytes using decodePairs.induct with
  | case1 position => exact iff_of_false nofun nofun
  | case2 position byte => cases heven
  | case3 position high low rest ih =>
      simp only [List.length_cons] at heven
      rw [decodePairs]
      simp only [bind_eq_error_iff, readDigit_eq_error_iff, readDigit_eq_ok_iff, ih (by omega),
        pure, Except.pure, reduceCtorEq, and_false, exists_false, or_false, exists_and_right,
        ← isDigitByte_iff, firstInvalid_cons]

/-! ## Reading texts -/

/-- Bytes are read exactly from the digits of them in pairs. -/
theorem decode_eq_ok_iff : decode text = .ok bytes ↔ Pairs text bytes := by
  simp only [decode]
  split
  · exact decodePairs_utf8_eq_ok_iff
  · next hodd =>
    refine iff_of_false (by simp) fun h => hodd ?_
    obtain ⟨heven, hdigits⟩ := exists_pairs_iff.1 ⟨bytes, h⟩
    rwa [length_utf8 hdigits]

/-- A text is refused for its odd number of bytes, or else for the first byte that is no digit. -/
theorem decode_eq_error_iff : decode text = .error flaw ↔ Flawed text flaw := by
  simp only [decode]
  split
  · next heven =>
    rw [decodePairs_eq_error_iff heven]
    constructor
    · exact .invalidDigit heven
    · intro h
      cases h with
      | oddLength hodd => omega
      | invalidDigit _ h => exact h
  · next hodd =>
    rw [Except.error.injEq]
    constructor
    · rintro rfl
      exact .oddLength (by omega)
    · intro h
      cases h with
      | oddLength => rfl
      | invalidDigit heven => exact absurd heven hodd

/-- The bytes are counted, not the characters. -/
example :
    decode ['a', 'é'] = .error .oddLength ∧
      decode ['a', '€'] = .error (.invalidDigit 0xe2 1) := by
  decide

/-- A text is flawed if it has an odd number of bytes or a byte that is no digit. -/
theorem exists_flawed_iff :
    (∃ flaw, Flawed text flaw) ↔
      (utf8 text).length % 2 = 1 ∨ ∃ byte ∈ utf8 text, ¬ IsDigitByte byte := by
  constructor
  · rintro ⟨flaw, h⟩
    cases h with
    | oddLength hodd => exact .inl hodd
    | invalidDigit _ h => exact .inr (exists_firstInvalid_iff.1 ⟨flaw, h⟩)
  · intro h
    by_cases hodd : (utf8 text).length % 2 = 1
    · exact ⟨_, .oddLength hodd⟩
    · obtain ⟨flaw, hflaw⟩ := exists_firstInvalid_iff.2 (h.resolve_left hodd)
      exact ⟨flaw, .invalidDigit (by omega) hflaw⟩

end VaultBatch.Hex
