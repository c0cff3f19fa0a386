import VaultBatch.Descriptor
import VaultBatch.Proofs.Fault

/-!
# Reading packed tokens

`Descriptor.token_eq_ok_iff` says that the descriptors that are read as a token are the packed
tokens, each read as the token it was packed from. Packing is therefore injective on tokens. Bytes
are refused as a descriptor for their number only (`Descriptor.ofList_eq_error_iff`), and
descriptors as a token for their first byte only (`Descriptor.token_eq_error_iff`).
-/

namespace VaultBatch

/-- A byte above the largest one is refused as a standard. -/
theorem TokenKind.ofByte_eq_error_iff {b : UInt8} {error : EncodingError} :
    ofByte b = .error error ↔
      maxByte < b.toNat ∧ error = .unknownKind .tokenKind (toString b.toNat) := by
  rw [ofByte, Field.known_eq_error_iff, ← Option.not_isSome_iff_eq_none, ofByte?_isSome_iff,
    Nat.not_le]

namespace Descriptor

/-- Bytes are refused as a descriptor exactly if they are not 36. -/
theorem ofList_eq_error_iff {bytes : List UInt8} {error : DecodeError} :
    ofList bytes = .error error ↔
      bytes.length ≠ 36 ∧ error = .invalidLength .descriptor bytes.length :=
  Layout.read_eq_error_iff

/-- Bytes are read as a descriptor exactly if they are 36. -/
theorem exists_ofList_iff {bytes : List UInt8} :
    (∃ d, ofList bytes = .ok d) ↔ bytes.length = 36 := by
  rw [exists_ok_iff fun _ => ofList_eq_error_iff, not_not]

/-- A list of byte strings is read as a list of descriptors exactly if it is their bytes. -/
theorem mapM_ofList_eq_ok_iff {given : List (List UInt8)} {entries : List Descriptor} :
    given.mapM ofList = .ok entries ↔ given = entries.map (·.bytes.toList) :=
  mapM_eq_ok_iff_eq_map fun _ _ => ofList_eq_ok_iff

/-- A descriptor is read as a token exactly if it is that token packed. -/
theorem token_eq_ok_iff {d : Descriptor} {token : Token} :
    d.token = .ok token ↔ d = token.pack := by
  constructor
  · intro h
    unfold Descriptor.token at h
    split at h
    · next kind hkind =>
      cases h
      rw [Token.pack, TokenKind.ofByte_eq_ok_iff.1 hkind, ofFields_fields]
    · cases h
  · rintro rfl
    exact token_pack token

/-- A descriptor is refused as a token exactly if its first byte is that of no standard. -/
theorem token_eq_error_iff {d : Descriptor} {error : DecodeError} :
    d.token = .error error ↔ TokenKind.maxByte < d.discriminant.toNat ∧
      error = .encoding (.unknownKind .tokenKind (toString d.discriminant.toNat)) := by
  unfold Descriptor.token
  constructor
  · intro h
    split at h
    · cases h
    · next cause hcause =>
      cases h
      obtain ⟨hbyte, rfl⟩ := TokenKind.ofByte_eq_error_iff.1 hcause
      exact ⟨hbyte, rfl⟩
  · rintro ⟨hbyte, rfl⟩
    rw [TokenKind.ofByte_eq_error_iff.2 ⟨hbyte, rfl⟩]

/-- A descriptor is read as a token exactly if its first byte is that of a standard. -/
theorem exists_token_iff {d : Descriptor} :
    (∃ token, d.token = .ok token) ↔ d.discriminant.toNat ≤ TokenKind.maxByte := by
  rw [exists_ok_iff fun _ => token_eq_error_iff, Nat.not_lt]

/-- A list of descriptors is read as a list of tokens exactly if it is those tokens packed. -/
theorem mapM_token_eq_ok_iff {entries : List Descriptor} {tokens : List Token} :
    entries.mapM token = .ok tokens ↔ entries = tokens.map Token.pack :=
  mapM_eq_ok_iff_eq_map fun _ _ => token_eq_ok_iff

end Descriptor

/-- Tokens with the same descriptor are the same. -/
theorem Token.pack_injective : Function.Injective Token.pack := by
  intro a b h
  have hread : a.pack.token = .ok b := Descriptor.token_eq_ok_iff.2 h
  rw [Descriptor.token_pack] at hread
  exact Except.ok.inj hread

end VaultBatch
