import VaultBatch.Calldata
import VaultBatch.Proofs.Bytes.Bits

/-!
# Amounts as words

The word of an amount is its sign extension: the 16 bytes of the amount behind 16 bytes that repeat
its sign (`Amount.toWord_eq_signExtension`). These are the words that are read as an amount, each as
the one that it extends (`Amount.ofWord?_eq_some_iff`).
-/

namespace VaultBatch

/-- There are as many byte strings of a sum of widths as pairs of byte strings of the widths. -/
theorem Bytes.count_add (m n : Nat) : Bytes.count (m + n) = Bytes.count m * Bytes.count n := by
  induction m with
  | zero => simp [Bytes.count]
  | succ m ih => rw [Nat.succ_add, Bytes.count, Bytes.count, ih, Nat.mul_assoc]

/-- The first bytes count as many times as there are byte strings of the width behind them. -/
theorem BigEndian.decodeList_append (first rest : List UInt8) :
    decodeList (first ++ rest) = decodeList first * Bytes.count rest.length + decodeList rest := by
  induction first with
  | nil => simp [decodeList]
  | cons byte first ih =>
      simp only [List.cons_append, decodeList, ih, List.length_append, Bytes.count_add,
        Nat.add_mul, Nat.mul_assoc, Nat.add_assoc]

namespace Amount

/-- The 16 bytes of an amount behind 16 bytes that repeat its sign. -/
def signExtension (amount : Amount) : Abi.Word :=
  Bytes.append (m := 16) ⟨List.replicate 16 (if amount.value < 0 then 0xff else 0), by simp⟩
    amount.toBytes

/-- The bytes of an amount are its value in two's complement. -/
theorem decode_toBytes (amount : Amount) : TwosComplement.decode amount.toBytes = amount.value := by
  rw [← value_ofBytes, ofBytes_toBytes]

/-- The sign extension of an amount stands for its value. -/
theorem decode_signExtension (amount : Amount) :
    TwosComplement.decode amount.signExtension = amount.value := by
  have hlow := BigEndian.decode_lt amount.toBytes
  have hvalue := decode_toBytes amount
  have hword : BigEndian.decode amount.signExtension =
      (if amount.value < 0 then Bytes.count 16 - 1 else 0) * Bytes.count 16 +
        BigEndian.decode amount.toBytes := by
    rw [BigEndian.decode, signExtension, Bytes.toList_append, BigEndian.decodeList_append,
      amount.toBytes.length_toList]
    split <;> rfl
  have hcount : Bytes.count 32 = Bytes.count 16 * Bytes.count 16 := Bytes.count_add 16 16
  have hsixteen : Bytes.count 16 = 0x100000000000000000000000000000000 := rfl
  simp only [TwosComplement.decode] at hvalue ⊢
  rw [hword, hcount]
  rw [hsixteen] at hlow hvalue ⊢
  -- the sign of the amount tells which half of the byte strings its bytes are in
  split at hvalue
  · rw [if_neg (show ¬ amount.value < 0 by omega), if_pos (by omega)]
    omega
  · rw [if_pos (show amount.value < 0 by omega), if_neg (by omega)]
    omega

/-! ## Writing -/

/-- The complement of an amount lies as far below minus one as the amount lies above zero. -/
theorem value_complement (amount : Amount) : amount.complement.value = -1 - amount.value := by
  rw [complement, value_ofBytes, TwosComplement.decode_complement, decode_toBytes]

/-- The bytes of an amount that is not negative are its value as a number. -/
theorem decode_toBytes_of_nonneg {amount : Amount} (h : 0 ≤ amount.value) :
    (BigEndian.decode amount.toBytes : Int) = amount.value := by
  have hvalue := decode_toBytes amount
  have hlt := BigEndian.decode_lt amount.toBytes
  unfold TwosComplement.decode at hvalue
  simp only at hvalue
  split at hvalue <;> omega

/-- Put into a word, they stand for the same value. -/
theorem decode_encode_of_nonneg {amount : Amount} (h : 0 ≤ amount.value) :
    TwosComplement.decode (BigEndian.encode 32 (BigEndian.decode amount.toBytes)) =
      amount.value := by
  have hhalf : 2 * BigEndian.decode amount.toBytes < Bytes.count 32 := by
    have hlt := BigEndian.decode_lt amount.toBytes
    have hcount : Bytes.count 32 = Bytes.count 16 * Bytes.count 16 := Bytes.count_add 16 16
    have hsixteen : Bytes.count 16 = 0x100000000000000000000000000000000 := rfl
    rw [hcount]
    rw [hsixteen] at hlt ⊢
    omega
  have hdecode : BigEndian.decode (BigEndian.encode 32 (BigEndian.decode amount.toBytes)) =
      BigEndian.decode amount.toBytes := BigEndian.decode_encode (by omega)
  rw [TwosComplement.decode_eq_decode (by rwa [hdecode]), hdecode, decode_toBytes_of_nonneg h]

/-- The word of an amount stands for its value. -/
theorem decode_toWord (amount : Amount) : TwosComplement.decode amount.toWord = amount.value := by
  unfold toWord
  split
  · next h => exact decode_encode_of_nonneg h
  · next h =>
    have hcomplement := value_complement amount
    rw [TwosComplement.decode_complement, decode_encode_of_nonneg (by omega), hcomplement]
    omega

/-- The word of an amount is the lowest 32 bytes of its value. -/
theorem toWord_eq_encode (amount : Amount) :
    amount.toWord = TwosComplement.encode 32 amount.value := by
  rw [← decode_toWord, TwosComplement.encode_decode]

/-- The word of an amount is its bytes behind those that repeat its sign. -/
theorem toWord_eq_signExtension (amount : Amount) : amount.toWord = amount.signExtension := by
  rw [toWord_eq_encode, ← decode_signExtension, TwosComplement.encode_decode]

/-! ## Reading -/

/-- A word is taken for the number that it is. -/
theorem ofHalf?_eq_ofInt? (word : Abi.Word) : ofHalf? word = ofInt? (BigEndian.decode word) := by
  unfold ofHalf?
  split
  · next hlong =>
    have hlarge : ¬ BigEndian.decode word < 2 ^ 127 := mt Bytes.bitLength_le_iff.2 (by omega)
    refine (ofInt?_eq_none_iff.2 (.inr ?_)).symm
    unfold maxValue
    omega
  · next hshort =>
    have hsmall : BigEndian.decode word < 2 ^ 127 := Bytes.bitLength_le_iff.1 (by omega)
    refine (ofInt?_eq_some_iff.2 (value_wrap ?_)).symm
    unfold minValue maxValue
    omega

/-- Turning around swaps the two ends of the amounts. -/
theorem ofInt?_map_complement (value : Int) :
    (ofInt? value).map complement = ofInt? (-1 - value) := by
  cases h : ofInt? value with
  | none =>
      have hrange := ofInt?_eq_none_iff.1 h
      refine (ofInt?_eq_none_iff.2 ?_).symm
      unfold minValue maxValue at hrange ⊢
      omega
  | some amount =>
      refine (ofInt?_eq_some_iff.2 ?_).symm
      rw [value_complement, ofInt?_eq_some_iff.1 h]

/-- A word is read as the integer that it stands for, if that fits. -/
theorem ofWord?_eq_ofInt? (word : Abi.Word) :
    ofWord? word = ofInt? (TwosComplement.decode word) := by
  have hcount : Bytes.count 32 = 2 * 2 ^ 255 := rfl
  have hsum := BigEndian.decode_complement word
  unfold ofWord?
  split
  · next hbit =>
    have hlarge : ¬ BigEndian.decode word < 2 ^ 255 :=
      mt (Bytes.bit_first_eq_false_iff rfl).2 (by simp [hbit])
    rw [ofHalf?_eq_ofInt?, ofInt?_map_complement,
      ← TwosComplement.decode_eq_decode (by omega), TwosComplement.decode_complement]
    congr 1
    omega
  · next hbit =>
    have hsmall := (Bytes.bit_first_eq_false_iff (b := word) rfl).1 (Bool.eq_false_iff.2 hbit)
    rw [ofHalf?_eq_ofInt?, TwosComplement.decode_eq_decode (by omega)]

/-- A word is read as an amount exactly if it is its sign extension. -/
theorem ofWord?_eq_some_iff {word : Abi.Word} {amount : Amount} :
    ofWord? word = some amount ↔ word = amount.signExtension := by
  rw [ofWord?_eq_ofInt?, ofInt?_eq_some_iff, ← toWord_eq_signExtension, toWord_eq_encode]
  constructor
  · intro h
    rw [h, TwosComplement.encode_decode]
  · rintro rfl
    rw [← toWord_eq_encode, decode_toWord]

/-- An amount is read back from its word. -/
theorem ofWord?_toWord (amount : Amount) : ofWord? amount.toWord = some amount :=
  ofWord?_eq_some_iff.2 amount.toWord_eq_signExtension

/-- A word is read as no amount exactly if it is the sign extension of none. -/
theorem ofWord?_eq_none_iff {word : Abi.Word} :
    ofWord? word = none ↔ ∀ amount : Amount, word ≠ amount.signExtension := by
  simp only [Option.eq_none_iff_forall_ne_some, Ne, ofWord?_eq_some_iff]

end Amount
end VaultBatch
