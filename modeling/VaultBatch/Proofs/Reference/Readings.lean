import VaultBatch.Proofs.Reference
import VaultBatch.Proofs.Token.Order

/-!
# The two readings of a descriptor

The descriptors that are read as a pool or gauge are those of pools and gauges
(`Descriptor.target_eq_ok_iff`); others are refused for a number, or else for their first byte. A
reference is read as what cannot be told from it by its descriptor: always as a token
(`Reference.token_pack_eq_ok_iff`), and sometimes as a pool or gauge
(`Reference.target_pack_eq_ok_iff`). `Reference.pack_readings` puts the two readings together.
-/

namespace VaultBatch

namespace Descriptor

variable {d : Descriptor} {target : Target} {error : DecodeError}

/-- The token number of a descriptor is in the 15 bytes behind the first one. -/
theorem toList_toBytes_id (d : Descriptor) :
    d.id.toBytes.toList = (d.bytes.toList.drop 1).take 15 := by
  rw [Descriptor.id, TokenId.toBytes_ofBytes]
  rfl

/-- A descriptor has the number zero exactly if the bytes of the number are zero. -/
theorem value_id_eq_zero_iff :
    d.id.value = 0 ↔ ∀ byte ∈ (d.bytes.toList.drop 1).take 15, byte = 0 := by
  have hzero : TokenId.zero.toBytes = Bytes.zero 15 := by decide
  have hid : d.id.value = 0 ↔ d.id = .zero := TokenId.value_injective.eq_iff (b := .zero)
  rw [hid, ← TokenId.toBytes_injective.eq_iff, hzero, Bytes.eq_zero_iff, toList_toBytes_id]

/-- The first byte of a descriptor tells its kind. -/
theorem head?_toList_bytes (d : Descriptor) : d.bytes.toList.head? = some d.discriminant :=
  List.head?_eq_some_head _

/-- A descriptor is read as a pool or gauge exactly if it is that one packed. -/
theorem target_eq_ok_iff : d.target = .ok target ↔ d = target.pack := by
  constructor
  · intro h
    unfold Descriptor.target at h
    split at h
    · cases h
    · next hid =>
      have hzero : d.id = .zero := TokenId.value_injective (not_not.1 hid)
      rw [← ofFields_fields d, hzero]
      split at h
      · next hpool =>
        cases h
        rw [hpool]
        rfl
      · split at h
        · next hgauge =>
          cases h
          rw [hgauge]
          rfl
        · cases h
  · rintro rfl
    exact target_pack target

/-- A descriptor is refused as a pool or gauge for its number, or else for its first byte. -/
theorem target_eq_error_iff :
    d.target = .error error ↔
      d.id.value ≠ 0 ∧ error = .nonZeroTargetId d.id ∨
        d.id.value = 0 ∧ (d.discriminant ≠ 0 ∧ d.discriminant ≠ 1) ∧
          error = .unknownDiscriminant d.discriminant := by
  unfold Descriptor.target
  by_cases hid : d.id.value = 0
  · by_cases hpool : d.discriminant = 0
    · simp [hid, hpool]
    · by_cases hgauge : d.discriminant = 1
      · simp [hid, hgauge]
      · simp [hid, hpool, hgauge, eq_comm]
  · simp [hid, eq_comm]

end Descriptor

/-- Reading the bytes of a descriptor as a token is reading the descriptor as one. -/
theorem Token.ofBytes_toList (d : Descriptor) : ofBytes d.bytes.toList = d.token := by
  rw [ofBytes, Descriptor.ofList_toList]
  rfl

namespace Target

variable {bytes : List UInt8} {target : Target} {error : DecodeError}

/-- Reading the bytes of a descriptor as a target is reading the descriptor as one. -/
theorem ofBytes_toList (d : Descriptor) : ofBytes d.bytes.toList = d.target := by
  rw [ofBytes, Descriptor.ofList_toList]
  rfl

/-- Bytes are read as a pool or gauge exactly if they are its descriptor. -/
theorem ofBytes_eq_ok_iff : ofBytes bytes = .ok target ↔ bytes = target.pack.bytes.toList := by
  simp only [ofBytes, bind_eq_ok_iff, Descriptor.ofList_eq_ok_iff, Descriptor.target_eq_ok_iff,
    exists_eq_right]

/-- Bytes are refused as a pool or gauge for how many they are, then for a number, then for the
first of them. -/
theorem ofBytes_eq_error_iff :
    ofBytes bytes = .error error ↔
      bytes.length ≠ 36 ∧ error = .invalidLength .descriptor bytes.length ∨
        bytes.length = 36 ∧ (∃ id : TokenId, id.toBytes.toList = (bytes.drop 1).take 15 ∧
          id.value ≠ 0 ∧ error = .nonZeroTargetId id) ∨
        bytes.length = 36 ∧ (∀ byte ∈ (bytes.drop 1).take 15, byte = 0) ∧
          ∃ first ∈ bytes.head?, (first ≠ 0 ∧ first ≠ 1) ∧
            error = .unknownDiscriminant first := by
  by_cases hlength : bytes.length = 36
  · obtain ⟨d, rfl⟩ : ∃ d : Descriptor, d.bytes.toList = bytes := ⟨⟨⟨bytes, hlength⟩⟩, rfl⟩
    have hid : ∀ id : TokenId,
        id.toBytes.toList = (d.bytes.toList.drop 1).take 15 ↔ d.id = id := by
      intro id
      rw [← Descriptor.toList_toBytes_id, Bytes.toList_inj, TokenId.toBytes_injective.eq_iff,
        eq_comm]
    rw [ofBytes_toList, Descriptor.target_eq_error_iff, Descriptor.value_id_eq_zero_iff,
      d.head?_toList_bytes]
    simp only [hlength, hid, ne_eq, not_true_eq_false, false_and, true_and, false_or,
      exists_eq_left', Option.mem_some]
  · rw [ofBytes, Descriptor.ofList_eq_error_iff.2 ⟨hlength, rfl⟩]
    simp [hlength, bind, Except.bind, eq_comm]

/-- Bytes are read as a pool or gauge exactly if they are 36, those of the number are zero and the
first one is zero or one. -/
theorem exists_ofBytes_iff :
    (∃ target, ofBytes bytes = .ok target) ↔
      bytes.length = 36 ∧ (∀ byte ∈ (bytes.drop 1).take 15, byte = 0) ∧
        (bytes.head? = some 0 ∨ bytes.head? = some 1) := by
  constructor
  · intro h
    obtain ⟨target, h⟩ := h
    obtain rfl := ofBytes_eq_ok_iff.1 h
    have hid : target.pack.id.value = 0 := congrArg TokenId.value (Descriptor.id_ofFields _ _ _)
    refine ⟨Bytes.length_toList _, Descriptor.value_id_eq_zero_iff.1 hid, ?_⟩
    cases target with
    | pool address => exact .inl rfl
    | gauge address => exact .inr rfl
  · intro h
    obtain ⟨hlength, hid, hfirst⟩ := h
    obtain ⟨d, rfl⟩ : ∃ d : Descriptor, d.bytes.toList = bytes := ⟨⟨⟨bytes, hlength⟩⟩, rfl⟩
    rw [d.head?_toList_bytes, Option.some.injEq, Option.some.injEq] at hfirst
    rw [ofBytes_toList]
    cases hread : d.target with
    | ok target => exact ⟨target, rfl⟩
    | error error =>
        rcases Descriptor.target_eq_error_iff.1 hread with ⟨hne, -⟩ | ⟨-, ⟨hpool, hgauge⟩, -⟩
        · exact absurd (Descriptor.value_id_eq_zero_iff.2 hid) hne
        · exact absurd hfirst (not_or.2 ⟨hpool, hgauge⟩)

end Target

namespace Reference

variable {reference : Reference} {token : Token} {target : Target}

/-- A reference is read as the tokens that cannot be told from it by its descriptor. -/
theorem token_pack_eq_ok_iff :
    reference.pack.token = .ok token ↔ reference.Alike (.token token) := by
  rw [Descriptor.token_eq_ok_iff, ← pack_eq_pack_iff]
  rfl

/-- A reference is read as the pools and gauges that cannot be told from it by its descriptor. -/
theorem target_pack_eq_ok_iff :
    reference.pack.target = .ok target ↔ reference.Alike (.target target) := by
  rw [Descriptor.target_eq_ok_iff, ← pack_eq_pack_iff]
  rfl

/-- For each reference there is a token that cannot be told from it. -/
theorem exists_alike_token (reference : Reference) : ∃ token, reference.Alike (.token token) := by
  cases reference with
  | token token => exact ⟨token, .refl _⟩
  | target target =>
      cases target with
      | pool address => exact ⟨_, .targetToken (.pool address)⟩
      | gauge address => exact ⟨_, .targetToken (.gauge address)⟩

/-- Besides a pool, only the fungible token at its address that has the number zero cannot be told
from it, and besides a gauge only the single token at its address that has the number zero. -/
theorem alike_target_iff :
    reference.Alike (.target target) ↔ reference = .target target ∨
      (∃ address, reference = .token ⟨.erc20, .zero, address⟩ ∧ target = .pool address) ∨
        ∃ address, reference = .token ⟨.erc721, .zero, address⟩ ∧ target = .gauge address := by
  constructor
  · intro h
    cases h with
    | refl => exact .inl rfl
    | tokenTarget h =>
        cases h with
        | pool address => exact .inr (.inl ⟨address, rfl, rfl⟩)
        | gauge address => exact .inr (.inr ⟨address, rfl, rfl⟩)
  · intro h
    rcases h with rfl | ⟨address, rfl, rfl⟩ | ⟨address, rfl, rfl⟩
    · exact .refl _
    · exact .tokenTarget (.pool address)
    · exact .tokenTarget (.gauge address)

/-- References have the same descriptor exactly if they are read as the same token. -/
theorem pack_eq_pack_iff_token_eq {other : Reference} :
    reference.pack = other.pack ↔ reference.pack.token = other.pack.token := by
  constructor
  · intro h
    rw [h]
  · intro h
    obtain ⟨token, halike⟩ := exists_alike_token reference
    have hread := token_pack_eq_ok_iff.2 halike
    have hother := h.symm.trans hread
    rw [Descriptor.token_eq_ok_iff.1 hread, Descriptor.token_eq_ok_iff.1 hother]

/-- Reading a pool or gauge undoes packing and accepts nothing else: bytes are refused for how many
they are, then for a number, then for the first of them. A reference is read as a pool or gauge
exactly if it is one itself, or a fungible or single token with the number zero, which is read as
the pool or the gauge at its address. It is always read as a token, and references have the same
descriptor exactly if they are read as the same token, which they are if they are the same or a
token and a target that collide. -/
theorem pack_readings :
    (∀ bytes : List UInt8,
      ((∃ target, Target.ofBytes bytes = .ok target) ↔
        bytes.length = 36 ∧ (∀ byte ∈ (bytes.drop 1).take 15, byte = 0) ∧
          (bytes.head? = some 0 ∨ bytes.head? = some 1)) ∧
      (∀ target, Target.ofBytes bytes = .ok target ↔ target.pack.bytes.toList = bytes) ∧
      ∀ error, Target.ofBytes bytes = .error error ↔
        bytes.length ≠ 36 ∧ error = .invalidLength .descriptor bytes.length ∨
          bytes.length = 36 ∧ (∃ id : TokenId, id.toBytes.toList = (bytes.drop 1).take 15 ∧
            id.value ≠ 0 ∧ error = .nonZeroTargetId id) ∨
          bytes.length = 36 ∧ (∀ byte ∈ (bytes.drop 1).take 15, byte = 0) ∧
            ∃ first ∈ bytes.head?, (first ≠ 0 ∧ first ≠ 1) ∧
              error = .unknownDiscriminant first) ∧
    (∀ target : Target, Target.ofBytes target.pack.bytes.toList = .ok target) ∧
    (∀ (reference : Reference) (target : Target),
      Target.ofBytes reference.pack.bytes.toList = .ok target ↔ reference = .target target ∨
        (∃ address, reference = .token ⟨.erc20, .zero, address⟩ ∧ target = .pool address) ∨
          ∃ address, reference = .token ⟨.erc721, .zero, address⟩ ∧ target = .gauge address) ∧
    (∀ reference : Reference, ∃ token, Token.ofBytes reference.pack.bytes.toList = .ok token) ∧
    ∀ reference other : Reference,
      (reference.pack = other.pack ↔
        Token.ofBytes reference.pack.bytes.toList = Token.ofBytes other.pack.bytes.toList) ∧
      (reference.pack = other.pack ↔ reference.Alike other) := by
  simp only [Token.ofBytes_toList]
  refine ⟨?_, ?_, ?_, ?_, ?_⟩
  · intro bytes
    refine ⟨Target.exists_ofBytes_iff, ?_, fun error => Target.ofBytes_eq_error_iff⟩
    intro target
    rw [Target.ofBytes_eq_ok_iff, eq_comm]
  · exact fun target => Target.ofBytes_eq_ok_iff.2 rfl
  · intro reference target
    rw [Target.ofBytes_toList, target_pack_eq_ok_iff, alike_target_iff]
  · intro reference
    obtain ⟨token, halike⟩ := exists_alike_token reference
    exact ⟨token, token_pack_eq_ok_iff.2 halike⟩
  · exact fun reference other => ⟨pack_eq_pack_iff_token_eq, pack_eq_pack_iff⟩

/-- A single token with the number zero is read as a gauge. -/
example :
    Target.ofBytes (Token.pack ⟨.erc721, .zero, .zero⟩).bytes.toList = .ok (.gauge .zero) := by
  decide

end Reference
end VaultBatch
