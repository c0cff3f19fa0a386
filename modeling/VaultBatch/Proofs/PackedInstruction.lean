import VaultBatch.PackedInstruction
import VaultBatch.Proofs.Fault

/-!
# Reading packed instructions

The packed instructions that are read are those that were packed, each as the instruction that it
was packed from (`decode_eq_ok_iff`), so that an instruction has one packed form. Bytes are refused
for their number, then for a reserved byte, then for the byte of the policy
(`IndexedInstruction.ofBytes_eq_error_iff`). `PackedInstruction.encode_bijection` puts this together
with packing from a place that may not fit its byte.
-/

namespace VaultBatch

namespace AmountKind

/-- A byte belongs to a policy exactly if it is at most two. -/
theorem exists_byte_eq_iff {b : UInt8} : (∃ kind : AmountKind, kind.byte = b) ↔ b.toNat ≤ 2 := by
  rw [← ofByte?_isSome_iff, Option.isSome_iff_exists]
  simp only [ofByte?_eq_some_iff]

/-- A byte above two is refused as a policy. -/
theorem ofByte_eq_error_iff {b : UInt8} {error : EncodingError} :
    ofByte b = .error error ↔
      2 < b.toNat ∧ error = .unknownKind .amountKind (toString b.toNat) := by
  rw [ofByte, Field.known_eq_error_iff, ← Option.not_isSome_iff_eq_none, ofByte?_isSome_iff,
    Nat.not_le]

end AmountKind

namespace PackedInstruction

/-! ## Packed forms -/

/-- A packed instruction is made of its fields. -/
theorem toList_bytes (p : PackedInstruction) :
    p.bytes.toList = p.index :: p.kindByte :: (p.reserved.toList ++ p.amount.toBytes.toList) := by
  have hindex : p.bytes.toList = p.index :: p.bytes.toList.drop kindOffset :=
    Bytes.toList_eq_head_cons p.bytes
  have hkind : p.bytes.toList.drop kindOffset =
      (p.bytes.slice kindOffset kindWidth).toList ++ p.bytes.toList.drop reservedOffset :=
    Bytes.drop_eq_slice_append _ _
  have hreserved : p.bytes.toList.drop reservedOffset =
      p.reserved.toList ++ p.bytes.toList.drop amountOffset :=
    Bytes.drop_eq_slice_append _ (by decide)
  have hamount : p.bytes.toList.drop amountOffset =
      (p.bytes.slice amountOffset amountWidth).toList ++ p.bytes.toList.drop width :=
    Bytes.drop_eq_slice_append _ _
  have hbyte : (p.bytes.slice kindOffset kindWidth).toList = [p.kindByte] :=
    Bytes.toList_eq_head _
  rw [hindex, hkind, hbyte, hreserved, hamount, Bytes.drop_width, List.append_nil, amount,
    Amount.toBytes_ofBytes, List.singleton_append]

/-- A packed instruction is read exactly if it is the packed form of what is read. -/
theorem decode_eq_ok_iff {p : PackedInstruction} {instruction : IndexedInstruction} :
    p.decode = .ok instruction ↔ p = pack instruction := by
  constructor
  · intro h
    unfold decode at h
    split at h
    · cases h
    · next hreserved =>
      split at h
      · next kind hkind =>
        cases h
        have hbytes := toList_bytes p
        rw [not_not.1 hreserved, ← AmountKind.ofByte_eq_ok_iff.1 hkind] at hbytes
        exact congrArg mk (Bytes.ext hbytes)
      · cases h
  · rintro rfl
    exact decode_pack instruction

/-- A packed instruction is refused for its reserved bytes, or else for the byte of its policy. -/
theorem decode_eq_error_iff {p : PackedInstruction} {error : DecodeError} :
    p.decode = .error error ↔
      p.reserved ≠ Bytes.zero 14 ∧ error = .nonZeroReserved p.reserved ∨
        p.reserved = Bytes.zero 14 ∧ 2 < p.kindByte.toNat ∧
          error = .encoding (.unknownKind .amountKind (toString p.kindByte.toNat)) := by
  unfold decode
  by_cases hreserved : p.reserved = Bytes.zero 14
  · rw [if_neg (not_not.2 hreserved)]
    cases hkind : AmountKind.ofByte p.kindByte with
    | ok kind =>
        have hbyte := AmountKind.exists_byte_eq_iff.1 ⟨kind, AmountKind.ofByte_eq_ok_iff.1 hkind⟩
        simp [hreserved, Nat.not_lt.2 hbyte]
    | error cause =>
        obtain ⟨hbyte, rfl⟩ := AmountKind.ofByte_eq_error_iff.1 hkind
        simp [hreserved, hbyte, eq_comm]
  · rw [if_pos hreserved]
    simp [hreserved, eq_comm]

/-- Bytes are refused as a packed instruction exactly if they are not 32. -/
theorem ofList_eq_error_iff {bytes : List UInt8} {error : DecodeError} :
    ofList bytes = .error error ↔
      bytes.length ≠ 32 ∧ error = .invalidLength .instruction bytes.length :=
  Layout.read_eq_error_iff

/-! ## Packing -/

/-- An instruction is packed exactly if its place fits a byte. -/
theorem encode_eq_ok_iff {index : Nat} {kind : AmountKind} {amount : Amount}
    {p : PackedInstruction} :
    encode index kind amount = .ok p ↔ ∃ instruction : IndexedInstruction,
      instruction.index.toNat = index ∧ instruction.kind = kind ∧ instruction.amount = amount ∧
        p = pack instruction := by
  unfold encode
  constructor
  · intro h
    split at h
    · next hindex =>
      cases h
      have hbyte : (UInt8.ofNat index).toNat = index :=
        UInt8.toNat_ofNat_of_lt' (Nat.lt_succ_of_le hindex)
      exact ⟨_, hbyte, rfl, rfl, rfl⟩
    · cases h
  · intro h
    obtain ⟨instruction, rfl, rfl, rfl, rfl⟩ := h
    have hindex : instruction.index.toNat ≤ maxIndex :=
      Nat.le_of_lt_succ instruction.index.toNat_lt
    rw [if_pos hindex, UInt8.ofNat_toNat]

/-- An instruction is refused exactly if its place is above the last one that fits a byte. -/
theorem encode_eq_error_iff {index : Nat} {kind : AmountKind} {amount : Amount}
    {error : EncodingError} :
    encode index kind amount = .error error ↔
      maxIndex < index ∧ error = .outOfRange .tokenIndex index maxIndex := by
  rw [← Nat.not_le, encode]
  split <;> simp [*, eq_comm]

/-- With the byte of a policy, raw packing is packing with the policy. -/
theorem encodeRaw_byte (index : Nat) (kind : AmountKind) (amount : Amount) :
    encodeRaw index kind.byte amount = encode index kind amount := by
  rw [encodeRaw, AmountKind.ofByte_eq_ok_iff.2 rfl]
  rfl

/-- A byte of no policy is refused, whatever the place. -/
theorem encodeRaw_of_lt (index : Nat) {kind : UInt8} (amount : Amount) (h : 2 < kind.toNat) :
    encodeRaw index kind amount = .error (.unknownKind .amountKind (toString kind.toNat)) := by
  rw [encodeRaw, AmountKind.ofByte_eq_error_iff.2 ⟨h, rfl⟩]
  rfl

end PackedInstruction

namespace IndexedInstruction

variable {bytes : List UInt8} {instruction : IndexedInstruction} {error : DecodeError}

/-! ## Reading bytes of any number -/

/-- Reading the bytes of a packed instruction is decoding it. -/
theorem ofBytes_toList (p : PackedInstruction) : ofBytes p.bytes.toList = p.decode := by
  rw [ofBytes, PackedInstruction.ofList_toList]
  rfl

/-- Bytes are read as an instruction exactly if they are its packed form. -/
theorem ofBytes_eq_ok_iff :
    ofBytes bytes = .ok instruction ↔
      bytes = (PackedInstruction.pack instruction).bytes.toList := by
  simp only [ofBytes, bind_eq_ok_iff, PackedInstruction.ofList_eq_ok_iff,
    PackedInstruction.decode_eq_ok_iff, exists_eq_right]

/-- Bytes are refused as an instruction for their number, then for a reserved byte, then for the
byte of the policy. -/
theorem ofBytes_eq_error_iff :
    ofBytes bytes = .error error ↔
      bytes.length ≠ 32 ∧ error = .invalidLength .instruction bytes.length ∨
        bytes.length = 32 ∧ (∃ reserved : Bytes 14, reserved.toList = (bytes.drop 2).take 14 ∧
          (∃ byte ∈ reserved.toList, byte ≠ 0) ∧ error = .nonZeroReserved reserved) ∨
        bytes.length = 32 ∧ (∀ byte ∈ (bytes.drop 2).take 14, byte = 0) ∧
          ∃ kind ∈ bytes[1]?, 2 < kind.toNat ∧
            error = .encoding (.unknownKind .amountKind (toString kind.toNat)) := by
  by_cases hlength : bytes.length = 32
  · obtain ⟨p, rfl⟩ : ∃ p : PackedInstruction, p.bytes.toList = bytes := ⟨⟨⟨bytes, hlength⟩⟩, rfl⟩
    have hreserved : (p.bytes.toList.drop 2).take 14 = p.reserved.toList := rfl
    have hkind : p.bytes.toList[1]? = some p.kindByte := by
      rw [p.toList_bytes]
      rfl
    have hdirty : p.reserved ≠ Bytes.zero 14 ↔ ∃ byte ∈ p.reserved.toList, byte ≠ 0 := by
      rw [Ne, Bytes.eq_zero_iff]
      simp
    rw [ofBytes_toList, PackedInstruction.decode_eq_error_iff, hdirty, Bytes.eq_zero_iff,
      hreserved, hkind]
    simp [hlength, Bytes.toList_inj]
  · rw [ofBytes, PackedInstruction.ofList_eq_error_iff.2 ⟨hlength, rfl⟩]
    simp [hlength, bind, Except.bind, eq_comm]

/-- Bytes are read as an instruction exactly if they are 32, the reserved ones are zero and the
second one is that of a policy. -/
theorem exists_ofBytes_iff :
    (∃ instruction, ofBytes bytes = .ok instruction) ↔
      bytes.length = 32 ∧ (∀ byte ∈ (bytes.drop 2).take 14, byte = 0) ∧
        ∃ kind ∈ bytes[1]?, kind.toNat ≤ 2 := by
  constructor
  · intro h
    obtain ⟨instruction, h⟩ := h
    obtain rfl := ofBytes_eq_ok_iff.1 h
    refine ⟨Bytes.length_toList _, ?_, instruction.kind.byte, rfl, ?_⟩
    · exact Bytes.eq_zero_iff.1 (PackedInstruction.reserved_pack instruction)
    · exact AmountKind.exists_byte_eq_iff.1 ⟨instruction.kind, rfl⟩
  · intro h
    obtain ⟨hlength, hreserved, kind, hkind, hbyte⟩ := h
    cases hread : ofBytes bytes with
    | ok instruction => exact ⟨instruction, rfl⟩
    | error error =>
        rcases ofBytes_eq_error_iff.1 hread with
          ⟨hother, -⟩ | ⟨-, reserved, heq, hdirty, -⟩ | ⟨-, -, other, hother, hunknown, -⟩
        · exact absurd hlength hother
        · obtain ⟨byte, hmem, hne⟩ := hdirty
          exact absurd (hreserved byte (heq ▸ hmem)) hne
        · obtain rfl : kind = other := Option.mem_unique hkind hother
          omega

end IndexedInstruction

/-- Packing is a bijection between the instructions with a place below 256 and the strings of 32
bytes of which the reserved ones are zero and the second one is that of a policy: what is packed is
read back with its place, policy and amount, and what is read is packed to the same bytes. Other
bytes are refused for their number, then for a reserved byte, then for the policy, and a policy that
is given as a byte is looked at before the place. -/
theorem PackedInstruction.encode_bijection :
    (∀ (index : Nat) (kind : AmountKind) (amount : Amount),
      ((∃ packed, encode index kind amount = .ok packed) ↔ index ≤ 255) ∧
      (∀ packed, encode index kind amount = .ok packed ↔
        ∃ instruction, IndexedInstruction.ofBytes packed.bytes.toList = .ok instruction ∧
          instruction.index.toNat = index ∧ instruction.kind = kind ∧
            instruction.amount = amount) ∧
      ∀ error, encode index kind amount = .error error ↔
        255 < index ∧ error = .outOfRange .tokenIndex index 255) ∧
    (∀ bytes : List UInt8,
      ((∃ instruction, IndexedInstruction.ofBytes bytes = .ok instruction) ↔
        bytes.length = 32 ∧ (∀ byte ∈ (bytes.drop 2).take 14, byte = 0) ∧
          ∃ kind ∈ bytes[1]?, kind.toNat ≤ 2) ∧
      (∀ instruction, IndexedInstruction.ofBytes bytes = .ok instruction ↔
        ∃ packed, encode instruction.index.toNat instruction.kind instruction.amount = .ok packed ∧
          packed.bytes.toList = bytes) ∧
      ∀ error, IndexedInstruction.ofBytes bytes = .error error ↔
        bytes.length ≠ 32 ∧ error = .invalidLength .instruction bytes.length ∨
          bytes.length = 32 ∧ (∃ reserved : Bytes 14, reserved.toList = (bytes.drop 2).take 14 ∧
            (∃ byte ∈ reserved.toList, byte ≠ 0) ∧ error = .nonZeroReserved reserved) ∨
          bytes.length = 32 ∧ (∀ byte ∈ (bytes.drop 2).take 14, byte = 0) ∧
            ∃ kind ∈ bytes[1]?, 2 < kind.toNat ∧
              error = .encoding (.unknownKind .amountKind (toString kind.toNat))) ∧
    ∀ (index : Nat) (kind : UInt8) (amount : Amount),
      (kind.toNat ≤ 2 → ∃ known : AmountKind, known.byte = kind ∧
        encodeRaw index kind amount = encode index known amount) ∧
      (2 < kind.toNat → encodeRaw index kind amount =
        .error (.unknownKind .amountKind (toString kind.toNat))) := by
  refine ⟨?_, ?_, ?_⟩
  · intro index kind amount
    refine ⟨?_, ?_, fun error => encode_eq_error_iff⟩
    · rw [exists_ok_iff fun _ => encode_eq_error_iff, Nat.not_lt]
      rfl
    · intro packed
      simp only [IndexedInstruction.ofBytes_toList, decode_eq_ok_iff, encode_eq_ok_iff]
      constructor
      · intro h
        obtain ⟨instruction, hindex, hkind, hamount, hpack⟩ := h
        exact ⟨instruction, hpack, hindex, hkind, hamount⟩
      · intro h
        obtain ⟨instruction, hpack, hindex, hkind, hamount⟩ := h
        exact ⟨instruction, hindex, hkind, hamount, hpack⟩
  · intro bytes
    refine ⟨IndexedInstruction.exists_ofBytes_iff, ?_,
      fun error => IndexedInstruction.ofBytes_eq_error_iff⟩
    intro instruction
    rw [IndexedInstruction.ofBytes_eq_ok_iff]
    have hencode : encode instruction.index.toNat instruction.kind instruction.amount =
        .ok (pack instruction) := encode_eq_ok_iff.2 ⟨instruction, rfl, rfl, rfl, rfl⟩
    rw [hencode]
    simp [eq_comm]
  · intro index kind amount
    refine ⟨?_, encodeRaw_of_lt index amount⟩
    intro hbyte
    obtain ⟨known, rfl⟩ := AmountKind.exists_byte_eq_iff.2 hbyte
    exact ⟨known, rfl, encodeRaw_byte index known amount⟩

end VaultBatch
