import Mathlib.Algebra.Group.Nat.Defs
import VaultBatch.Proofs.Calldata.Outcome

/-!
# Words that are deposits

A word is read as a deposit exactly if it repeats the sign of the deposit in all places from 127 on
(`Amount.exists_ofWord?_iff`). `Calldata.readDeposit_iff_bits` puts this together with writing,
which gives each deposit the one word that is read as it.
-/

namespace VaultBatch

namespace Amount

/-- The word of an amount is its value up to multiples of how many words there are. -/
theorem decode_toWord_eq_emod (amount : Amount) :
    (BigEndian.decode amount.toWord : Int) = amount.value % (2 ^ 256 : Nat) := by
  have hcount : (2 ^ 256 : Nat) = Bytes.count 32 := (Bytes.count_eq_two_pow 32).symm
  have hpos : (0 : Int) < (Bytes.count 32 : Nat) := Int.natCast_pos.2 (Bytes.count_pos 32)
  have hlow := Int.emod_nonneg amount.value (Int.ne_of_gt hpos)
  have hhigh := Int.emod_lt_of_pos amount.value hpos
  rw [toWord_eq_encode, TwosComplement.encode, BigEndian.decode_encode (by omega), hcount]
  omega

/-- A word is read as an amount exactly if its number, or that of its complement, has no bits from
place 127 on. -/
theorem exists_ofWord?_iff {word : Abi.Word} :
    (∃ amount, ofWord? word = some amount) ↔
      BigEndian.decode word < 2 ^ 127 ∨ BigEndian.decode word.complement < 2 ^ 127 := by
  have hsum := BigEndian.decode_complement word
  have hcount : Bytes.count 32 = 2 ^ 256 := Bytes.count_eq_two_pow 32
  have hfits : ofInt? (TwosComplement.decode word) ≠ none ↔
      minValue ≤ TwosComplement.decode word ∧ TwosComplement.decode word ≤ maxValue := by
    rw [Ne, ofInt?_eq_none_iff]
    omega
  rw [ofWord?_eq_ofInt?, ← Option.ne_none_iff_exists', hfits]
  unfold TwosComplement.decode minValue maxValue
  simp only
  split <;> omega

end Amount

namespace Calldata

/-- The word of a deposit is its value in two's complement. A word is read as the deposit that it is
the word of, which exists exactly if all bits from place 127 on are equal, and else it is out of
range. -/
theorem readDeposit_iff_bits :
    (∀ amount : Amount,
      (BigEndian.decode amount.toWord : Int) = amount.value % (2 ^ 256 : Nat)) ∧
    (∀ word : Abi.Word,
      (∀ amount, readDeposit word = .ok amount ↔ word = amount.toWord) ∧
      ((∃ amount, readDeposit word = .ok amount) ↔
        ∀ place, 127 ≤ place ∧ place < 256 → word.bit place = word.bit 127) ∧
      ∀ error, readDeposit word = .error error ↔
        (∃ place, (127 ≤ place ∧ place < 256) ∧ word.bit place ≠ word.bit 127) ∧
          error = .depositOutOfRange word) ∧
    ∀ amount : Amount, readDeposit amount.toWord = .ok amount := by
  have hread : ∀ (word : Abi.Word) (amount : Amount),
      readDeposit word = .ok amount ↔ word = amount.toWord := by
    intro word amount
    rw [readDeposit_eq_ok_iff, Amount.toWord_eq_signExtension]
  have hexists : ∀ word : Abi.Word, (∃ amount, readDeposit word = .ok amount) ↔
      ∀ place, 127 ≤ place ∧ place < 256 → word.bit place = word.bit 127 := by
    intro word
    simp only [readDeposit_eq_ok_iff, ← Amount.ofWord?_eq_some_iff]
    rw [Amount.exists_ofWord?_iff]
    exact (Bytes.forall_bit_eq_iff (by decide)).symm
  refine ⟨Amount.decode_toWord_eq_emod, fun word => ⟨hread word, hexists word, ?_⟩,
    fun amount => (hread _ amount).2 rfl⟩
  intro error
  have hnone : (∀ amount : Amount, word ≠ amount.signExtension) ↔
      ∃ place, (127 ≤ place ∧ place < 256) ∧ word.bit place ≠ word.bit 127 := by
    simp only [Ne, ← not_exists, ← readDeposit_eq_ok_iff, hexists word, not_forall, exists_prop]
  rw [readDeposit_eq_error_iff, hnone]

/-- The smallest amount is a deposit, but a word with only its first bit set is none. -/
example :
    (readDeposit (BigEndian.encode 32 (2 ^ 256 - 2 ^ 127))).toOption.map Amount.value =
        some Amount.minValue ∧
      readDeposit (BigEndian.encode 32 (2 ^ 255)) =
        .error (.depositOutOfRange (BigEndian.encode 32 (2 ^ 255))) := by
  decide +kernel

end Calldata
end VaultBatch
