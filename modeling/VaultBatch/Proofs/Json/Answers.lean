import VaultBatch.Json.Reader
import VaultBatch.Json.Writer
import VaultBatch.Proofs.Json.Number

/-!
# Written values are read back

`Reader.Answers read text outcome` says that in front of whatever may stand behind a value, a reader
takes just `text` and gives `outcome`, a value or a fault. The rules follow the readers of single
values: strings (`checkedString_answers`), names (`oneOf_answers`) and numbers
(`wideInteger_answers`, `boundedNatural_answers`). `parse_of_answers` says what is then read from
the whole text.
-/

namespace VaultBatch.Json

variable {α β γ : Type}

/-- The text starts neither with a blank nor with the end of a sequence. -/
def Opens (text : List Char) : Prop :=
  ∃ c rest, text = c :: rest ∧ isBlank c = false ∧ c ≠ ']'

/-- A text that opens a value has no blanks to drop. -/
theorem Opens.dropBlanks_append {text : List Char} (h : Opens text) (rest : List Char) :
    dropBlanks (text ++ rest) = text ++ rest := by
  obtain ⟨c, text, rfl, hblank, -⟩ := h
  rw [dropBlanks, List.cons_append, List.dropWhile_cons, hblank]
  rfl

/-- A text that opens a value is not empty. -/
theorem Opens.ne_nil {text : List Char} (h : Opens text) : text ≠ [] := by
  obtain ⟨c, rest, rfl, -⟩ := h
  exact List.cons_ne_nil c rest

/-- The reader takes the text off, whatever it is in front of, and gives the outcome. -/
structure Reader.Answers (read : Reader α) (text : List Char) (outcome : Except Error α) :
    Prop where
  opens : Opens text
  append : ∀ rest, Delimited rest → read (text ++ rest) = outcome.map fun value => (value, rest)

/-- The reader takes nothing and gives the outcome. -/
def Reader.Settles (read : Reader α) (outcome : Except Error α) : Prop :=
  ∀ text, read text = outcome.map fun value => (value, text)

namespace Reader

variable {read : Reader α} {next : α → Reader β} {text : List Char} {value : α}
  {outcome : Except Error β}

/-- A value is given without reading. -/
theorem settles_pure (value : α) : (pure value : Reader α).Settles (.ok value) :=
  fun _ => rfl

/-- A fault is given without reading. -/
theorem settles_fail (error : Error) : (fail error : Reader α).Settles (.error error) :=
  fun _ => rfl

/-- Reading goes on with the outcome, behind the text that gave it. -/
theorem Answers.bind_append {first : Except Error α} (h : read.Answers text first) {rest : List Char}
    (hrest : Delimited rest) :
    (read >>= next) (text ++ rest) =
      (first.map fun value => (value, rest)) >>= fun taken => next taken.1 taken.2 := by
  show (read (text ++ rest) >>= fun taken => next taken.1 taken.2) = _
  rw [h.append rest hrest]

/-- A value that has been read is looked at without reading on. -/
theorem Answers.settle (h : read.Answers text (.ok value)) (hnext : (next value).Settles outcome) :
    (read >>= next).Answers text outcome := by
  refine ⟨h.opens, ?_⟩
  intro rest hrest
  rw [h.bind_append hrest]
  exact hnext rest

/-- After a fault nothing more is read. -/
theorem Answers.stop {error : Error} (h : read.Answers text (.error error)) :
    (read >>= next).Answers text (.error error) := by
  refine ⟨h.opens, ?_⟩
  intro rest hrest
  rw [h.bind_append hrest]
  rfl

/-- A value is read after a step that takes nothing. -/
theorem Settles.answer (h : read.Settles (.ok value)) (hnext : (next value).Answers text outcome) :
    (read >>= next).Answers text outcome := by
  refine ⟨hnext.opens, ?_⟩
  intro rest hrest
  show (read (text ++ rest) >>= fun taken => next taken.1 taken.2) = _
  rw [h]
  exact hnext.append rest hrest

end Reader

open Reader

/-- The whole of a text is read. -/
theorem parse_of_answers {read : Reader α} {text : List Char} {outcome : Except Error α}
    (h : read.Answers text outcome) : parse read (String.ofList text) = outcome := by
  have hread := h.append [] delimited_nil
  rw [List.append_nil] at hread
  unfold parse
  rw [String.toList_ofList, hread]
  cases outcome <;> rfl

/-! ## Strings and names -/

/-- A written string opens with its quote. -/
theorem opens_text (s : String) : Opens (Writer.text s) :=
  ⟨'"', _, rfl, rfl, by decide⟩

/-- A written string does not start like a null. -/
theorem head?_text_ne (s : String) : (Writer.text s).head? ≠ some 'n' := by
  show some '"' ≠ some 'n'
  decide

/-- A written string is its escaped characters between quotes, whatever stands behind. -/
theorem text_append (s : String) (rest : List Char) :
    Writer.text s ++ rest = '"' :: (s.toList.flatMap Text.escape ++ '"' :: rest) := by
  simp [Writer.text, Text.write]

/-- Behind its blanks, of which there are none, a written string opens with its quote. -/
theorem dropBlanks_text_append (s : String) (rest : List Char) :
    dropBlanks (Writer.text s ++ rest) =
      '"' :: (s.toList.flatMap Text.escape ++ '"' :: rest) := by
  rw [(opens_text s).dropBlanks_append rest, text_append]

/-- A written string is read back. -/
theorem string_answers (wanted : Wanted) (s : String) :
    (string wanted).Answers (Writer.text s) (.ok s) := by
  refine ⟨opens_text s, ?_⟩
  intro rest _
  unfold string
  rw [dropBlanks_text_append]
  show (orMalformed (Text.read _) >>= fun taken => _) = _
  rw [Text.read_write]
  show Except.ok (String.ofList s.toList, rest) = _
  rw [String.ofList_toList]
  rfl

/-- What a string stands for is read from it. -/
theorem checkedString_answers {check : String → Except Rejection α} {s : String} {value : α}
    (h : check s = .ok value) : (checkedString check).Answers (Writer.text s) (.ok value) := by
  refine (string_answers .text s).settle ?_
  intro text
  simp only [h]
  rfl

/-- A name is read as what it stands for. -/
theorem oneOf_answers {value? : String → Option α} {names : List String} {name : String} {value : α}
    (h : value? name = some value) :
    (oneOf value? names).Answers (Writer.text name) (.ok value) := by
  refine ⟨opens_text name, ?_⟩
  intro rest _
  unfold oneOf
  rw [dropBlanks_text_append]
  show (orMalformed (Text.read _) >>= fun taken => _) = _
  rw [Text.read_write]
  show ofName value? names (String.ofList name.toList) rest = _
  rw [String.ofList_toList, ofName, h]
  rfl

/-- A value that starts with no letter is read where it may be missing. -/
theorem optional_answers {read : Reader α} {text : List Char} {value : α}
    (h : read.Answers text (.ok value)) (hn : text.head? ≠ some 'n') :
    (optional read).Answers text (.ok (some value)) := by
  refine ⟨h.opens, ?_⟩
  intro rest hrest
  have hread := h.append rest hrest
  have hblanks := h.opens.dropBlanks_append rest
  obtain ⟨c, text, rfl, -⟩ := h.opens
  unfold optional
  rw [hblanks]
  rw [List.cons_append] at hread ⊢
  split
  · next heq =>
    obtain ⟨rfl, -⟩ := List.cons.inj heq
    exact absurd rfl hn
  · next heq =>
    obtain ⟨rfl, -⟩ := List.cons.inj heq
    exact absurd rfl hn
  · rw [hread]
    rfl

/-! ## Numbers -/

/-- A written integer opens with its sign or a digit. -/
theorem opens_integer (value : Int) : Opens (Writer.integer value) := by
  obtain ⟨c, rest, heq⟩ := List.exists_cons_of_ne_nil (Decimal.ofInt_ne_nil value)
  have hc : c = '-' ∨ c.isDigit = true := Decimal.mem_ofInt (heq ▸ List.mem_cons_self)
  refine ⟨c, rest, heq, ?_, ?_⟩
  · rcases hc with rfl | hdigit
    · rfl
    · exact isBlank_of_isDigit hdigit
  · rcases hc with rfl | hdigit
    · decide
    · intro h
      cases h
      cases hdigit

/-- A written integer does not start like a null. -/
theorem head?_integer_ne (value : Int) : (Writer.integer value).head? ≠ some 'n' := by
  intro h
  rcases Decimal.mem_ofInt (List.mem_of_mem_head? h) with hc | hdigit
  · cases hc
  · cases hdigit

/-- An integer of up to 128 bits is read back, one with a sign where signs are read. -/
theorem wideInteger_answers {isSigned : Bool} {low high value : Int}
    (hbounds : low ≤ value ∧ value ≤ high) (hsign : value < 0 → isSigned = true) :
    (wideInteger isSigned low high).Answers (Writer.integer value) (.ok value) := by
  refine ⟨opens_integer value, ?_⟩
  intro rest hrest
  have hblanks := (opens_integer value).dropBlanks_append rest
  unfold wideInteger
  rw [hblanks]
  -- the reader tells the cases apart by the minus in front, which no digit is
  cases value with
  | ofNat n =>
      have hwhole := Lexeme.splitWhole_ofNat n hrest.stops
      obtain ⟨c, more, heq, hc, -⟩ := Decimal.ofNat_eq_cons n
      rw [heq] at hwhole
      rw [show Writer.integer (Int.ofNat n) = c :: more from heq]
      split
      · next hminus =>
        obtain ⟨rfl, -⟩ := List.cons.inj hminus
        cases hc
      · rw [List.cons_append] at hwhole
        show (orMalformed (Lexeme.splitWhole (c :: (more ++ rest))) >>= fun taken => _) = _
        rw [hwhole]
        show (if low ≤ ((Lexeme.natOfDigits (Lexeme.digits n) : Nat) : Int) ∧
          ((Lexeme.natOfDigits (Lexeme.digits n) : Nat) : Int) ≤ high then _ else _) = _
        rw [Lexeme.natOfDigits_digits]
        exact if_pos hbounds
  | negSucc n =>
      rw [hsign (Int.negSucc_lt_zero n)]
      show (orMalformed (Lexeme.splitWhole (Decimal.ofNat (n + 1) ++ rest)) >>= fun taken => _) = _
      rw [Lexeme.splitWhole_ofNat _ hrest.stops]
      show (if low ≤ -((Lexeme.natOfDigits (Lexeme.digits (n + 1)) : Nat) : Int) ∧
        -((Lexeme.natOfDigits (Lexeme.digits (n + 1)) : Nat) : Int) ≤ high then _ else _) = _
      rw [Lexeme.natOfDigits_digits]
      exact if_pos hbounds

/-- A written natural number below 2^128 is read back. -/
theorem natural128_answers {n : Nat} (h : n < 0x100000000000000000000000000000000) :
    natural128.Answers (Writer.integer n) (.ok n) := by
  have hwide : (wideInteger false 0 0xffffffffffffffffffffffffffffffff).Answers
      (Writer.integer n) (.ok (n : Int)) :=
    wideInteger_answers (by omega) (by omega)
  exact hwide.settle (settles_pure _)

/-- A natural number below a bound is read back, if it fits 64 bits. -/
theorem boundedNatural_answers {bound n : Nat} {wanted : Wanted} (hbound : n < bound)
    (hword : n < Lexeme.wordBound) :
    (boundedNatural bound wanted).Answers (Writer.integer n) (.ok n) := by
  refine ⟨opens_integer n, ?_⟩
  intro rest hrest
  have hblanks := (opens_integer n).dropBlanks_append rest
  have hsplit := Lexeme.split_ofNat n hrest
  obtain ⟨c, more, heq, hc, -⟩ := Decimal.ofNat_eq_cons n
  rw [heq] at hsplit
  rw [show Writer.integer (n : Int) = c :: more from heq] at hblanks ⊢
  unfold boundedNatural
  rw [hblanks]
  rw [List.cons_append] at hsplit ⊢
  show (if (decide (c = '-') || c.isDigit) = true then _ else _) = _
  rw [if_pos (by rw [hc, Bool.or_true]), hsplit]
  show (orMalformed (Lexeme.value (.ofDigits (Lexeme.digits n))) >>= fun number => _) = _
  rw [Lexeme.value_ofDigits hword]
  show (if 0 ≤ (n : Int) ∧ (n : Int) < (bound : Int) then _ else _) = _
  rw [if_pos (by omega)]
  rfl

/-- A written byte is read back. -/
theorem byte_answers (b : UInt8) : byte.Answers (Writer.integer b.toNat) (.ok b) := by
  have hlt := b.toNat_lt
  have hread : (boundedNatural 256 .byte).Answers (Writer.integer b.toNat) (.ok b.toNat) :=
    boundedNatural_answers hlt (Nat.lt_trans hlt (by decide))
  have hbyte : byte.Answers (Writer.integer b.toNat) (.ok (UInt8.ofNat b.toNat)) :=
    hread.settle (settles_pure _)
  rwa [UInt8.ofNat_toNat] at hbyte

end VaultBatch.Json
