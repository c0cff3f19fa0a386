import Mathlib.Algebra.Group.Nat.Defs
import VaultBatch.Proofs.Descriptor

/-!
# Tokens are ordered as their descriptors

Numbers below the same bound are ordered as their big-endian bytes, so that comparing descriptors
byte by byte is comparing tokens (`Token.compare_pack`). With the two directions of reading,
`Token.ofBytes_eq_ok_iff` for descriptors and `Descriptor.ofRaw_eq_ok_iff` for fields that may be
out of range, this makes packing an isomorphism of orders (`Token.pack_isomorphism`).
-/

namespace VaultBatch

/-! ## Orders of byte strings -/

/-- Byte strings that start with as many bytes are compared by these, then by what follows. -/
theorem compare_append_of_length_eq {a b c d : List UInt8} (h : a.length = c.length) :
    compare (a ++ b) (c ++ d) = (compare a c).then (compare b d) := by
  induction a generalizing c with
  | nil =>
      obtain rfl := List.length_eq_zero_iff.1 h.symm
      rfl
  | cons x a ih =>
      match c, h with
      | y :: c, h =>
        have hlength : a.length = c.length := Nat.succ.inj h
        rw [List.cons_append, List.cons_append, List.compare_cons_cons, List.compare_cons_cons,
          ih hlength, Ordering.then_assoc]

namespace BigEndian

/-- Of two numbers with remainders below a bound, the multiples of the bound are compared first. -/
theorem compare_mul_add {bound m n r s : Nat} (hr : r < bound) (hs : s < bound) :
    compare (m * bound + r) (n * bound + s) = (compare m n).then (compare r s) := by
  rcases Nat.lt_trichotomy m n with h | rfl | h
  · have hstep : (m + 1) * bound ≤ n * bound := Nat.mul_le_mul_right _ h
    rw [Nat.add_mul] at hstep
    rw [Nat.compare_eq_lt.2 h, Nat.compare_eq_lt.2 (show m * bound + r < n * bound + s by omega)]
    rfl
  · rw [Nat.compare_eq_eq.2 rfl, Nat.compare_eq_ite_lt, Nat.compare_eq_ite_lt (a := r)]
    simp only [Nat.add_lt_add_iff_left]
    rfl
  · have hstep : (n + 1) * bound ≤ m * bound := Nat.mul_le_mul_right _ h
    rw [Nat.add_mul] at hstep
    rw [Nat.compare_eq_gt.2 h, Nat.compare_eq_gt.2 (show n * bound + s < m * bound + r by omega)]
    rfl

/-- Byte strings of one length are compared as the numbers that they stand for. -/
theorem compare_decodeList {a b : List UInt8} (h : a.length = b.length) :
    compare (decodeList a) (decodeList b) = compare a b := by
  induction a generalizing b with
  | nil =>
      obtain rfl := List.length_eq_zero_iff.1 h.symm
      rfl
  | cons x a ih =>
      match b, h with
      | y :: b, h =>
        have hlength : a.length = b.length := Nat.succ.inj h
        have hb := decodeList_lt b
        rw [← hlength] at hb
        rw [decodeList, decodeList, ← hlength, compare_mul_add (decodeList_lt a) hb, ih hlength,
          List.compare_cons_cons, UInt8.compare_eq_toNat_compare_toNat]

end BigEndian

/-- Token numbers are compared as their bytes. -/
theorem TokenId.compare_toBytes (a b : TokenId) :
    compare a.toBytes.toList b.toBytes.toList = compare a.value b.value := by
  have hlength : a.toBytes.toList.length = b.toBytes.toList.length := by simp
  have hvalue : ∀ id : TokenId, BigEndian.decodeList id.toBytes.toList = id.value :=
    fun id => BigEndian.decode_encode id.value_lt
  rw [← BigEndian.compare_decodeList hlength, hvalue, hvalue]

/-- Tokens are compared as their descriptors. -/
theorem Token.compare_pack (a b : Token) : compare a.pack b.pack = compare a b := by
  have hid : a.id.toBytes.toList.length = b.id.toBytes.toList.length := by simp
  show compare (a.kind.byte :: (a.id.toBytes.toList ++ a.address.bytes.toList))
    (b.kind.byte :: (b.id.toBytes.toList ++ b.address.bytes.toList)) = _
  rw [List.compare_cons_cons, compare_append_of_length_eq hid, TokenId.compare_toBytes]
  rfl

/-! ## Reading -/

/-- The byte of a standard is one that is read as a standard. -/
theorem TokenKind.byte_le (kind : TokenKind) : kind.byte.toNat ≤ maxByte := by
  rw [← ofByte?_isSome_iff, ofByte?_eq_some_iff.2 rfl]
  rfl

/-- How many numbers 15 bytes tell apart. -/
theorem TokenId.count_eq : Bytes.count 15 = 2 ^ 120 := rfl

/-- Bytes are read as a token exactly if they are its descriptor. -/
theorem Token.ofBytes_eq_ok_iff {bytes : List UInt8} {token : Token} :
    ofBytes bytes = .ok token ↔ bytes = token.pack.bytes.toList := by
  simp only [ofBytes, bind_eq_ok_iff, Descriptor.ofList_eq_ok_iff, Descriptor.token_eq_ok_iff,
    exists_eq_right]

/-- Bytes are read as a token exactly if they are 36 and the first one is that of a standard. -/
theorem Token.exists_ofBytes_iff {bytes : List UInt8} :
    (∃ token, ofBytes bytes = .ok token) ↔
      bytes.length = 36 ∧ ∃ first ∈ bytes.head?, first.toNat ≤ TokenKind.maxByte := by
  constructor
  · rintro ⟨token, h⟩
    obtain rfl := ofBytes_eq_ok_iff.1 h
    exact ⟨token.pack.bytes.length_toList, token.kind.byte, rfl, token.kind.byte_le⟩
  · rintro ⟨hlength, first, hfirst, hbyte⟩
    obtain ⟨d, hd⟩ := Descriptor.exists_ofList_iff.2 hlength
    obtain rfl := Descriptor.ofList_eq_ok_iff.1 hd
    have hdiscriminant : d.discriminant = first := by
      rw [Descriptor.discriminant, Bytes.head]
      exact Option.some.inj ((List.head?_eq_some_head _).symm.trans hfirst)
    obtain ⟨token, htoken⟩ := Descriptor.exists_token_iff.2 (hdiscriminant ▸ hbyte)
    exact ⟨token, ofBytes_eq_ok_iff.2 (by rw [Descriptor.token_eq_ok_iff.1 htoken])⟩

/-- Token numbers with the same value are the same. -/
theorem TokenId.value_injective : Function.Injective value := by
  rintro ⟨value, hvalue⟩ ⟨other, hother⟩ h
  cases h
  rfl

/-- Token numbers with the same bytes are the same. -/
theorem TokenId.toBytes_injective : Function.Injective toBytes :=
  Function.LeftInverse.injective ofBytes_toBytes

/-- A number is a token number exactly if that one has its value. -/
theorem TokenId.ofNat_eq_ok_iff {value : Nat} {id : TokenId} :
    ofNat value = .ok id ↔ id.value = value := by
  constructor
  · intro h
    unfold ofNat at h
    split at h
    · cases h
      rfl
    · cases h
  · rintro rfl
    exact ofNat_value id

/-- A number is refused as a token number exactly if it takes more than 15 bytes. -/
theorem TokenId.ofNat_eq_error_iff {value : Nat} {error : EncodingError} :
    ofNat value = .error error ↔
      Bytes.count 15 ≤ value ∧ error = .outOfRange .tokenId value maxValue := by
  unfold ofNat
  split
  · next h => simp [Nat.not_le.2 h]
  · next h => simp [Nat.not_lt.1 h, eq_comm]

namespace Descriptor

variable {kind : UInt8} {id : Nat} {address : Address}

/-- A byte of no standard is refused before the number is looked at. -/
theorem ofRaw_of_ofByte?_eq_none (h : TokenKind.ofByte? kind = none) :
    ofRaw kind id address = .error (.outOfRange .tokenKind kind.toNat TokenKind.maxByte) := by
  rw [ofRaw, h]
  rfl

/-- With the byte of a standard, raw packing is packing the token. -/
theorem ofRaw_byte (standard : TokenKind) :
    ofRaw standard.byte id address =
      TokenId.ofNat id >>= fun number => .ok (Token.pack ⟨standard, number, address⟩) := by
  rw [ofRaw, TokenKind.ofByte?_eq_some_iff.2 rfl]
  rfl

/-- Fields that may be out of range are packed exactly if they are those of a token, which is
packed then. -/
theorem ofRaw_eq_ok_iff {d : Descriptor} :
    ofRaw kind id address = .ok d ↔ ∃ token : Token,
      token.kind.byte = kind ∧ token.id.value = id ∧ token.address = address ∧ token.pack = d := by
  constructor
  · intro h
    cases hkind : TokenKind.ofByte? kind with
    | none =>
        rw [ofRaw_of_ofByte?_eq_none hkind] at h
        cases h
    | some standard =>
        obtain rfl := TokenKind.ofByte?_eq_some_iff.1 hkind
        rw [ofRaw_byte] at h
        obtain ⟨number, hid, h⟩ := bind_eq_ok_iff.1 h
        cases h
        exact ⟨_, rfl, TokenId.ofNat_eq_ok_iff.1 hid, rfl, rfl⟩
  · rintro ⟨token, rfl, rfl, rfl, rfl⟩
    rw [ofRaw_byte, TokenId.ofNat_value]
    rfl

/-- Fields are refused for the kind, or else for the number. -/
theorem ofRaw_eq_error_iff {error : EncodingError} :
    ofRaw kind id address = .error error ↔
      TokenKind.maxByte < kind.toNat ∧
          error = .outOfRange .tokenKind kind.toNat TokenKind.maxByte ∨
        kind.toNat ≤ TokenKind.maxByte ∧ Bytes.count 15 ≤ id ∧
          error = .outOfRange .tokenId id TokenId.maxValue := by
  rw [← Nat.not_le, ← TokenKind.ofByte?_isSome_iff]
  cases hkind : TokenKind.ofByte? kind with
  | none =>
      rw [ofRaw_of_ofByte?_eq_none hkind]
      simp [eq_comm]
  | some standard =>
      obtain rfl := TokenKind.ofByte?_eq_some_iff.1 hkind
      rw [ofRaw_byte, bind_eq_error_iff, TokenId.ofNat_eq_error_iff]
      simp

/-- Raw packing succeeds exactly if the byte is that of a standard and the number fits 15 bytes. -/
theorem exists_ofRaw_iff :
    (∃ d, ofRaw kind id address = .ok d) ↔
      kind.toNat ≤ TokenKind.maxByte ∧ id < Bytes.count 15 := by
  constructor
  · rintro ⟨d, h⟩
    obtain ⟨token, rfl, rfl, rfl, -⟩ := ofRaw_eq_ok_iff.1 h
    exact ⟨token.kind.byte_le, token.id.value_lt⟩
  · rintro ⟨hkind, hid⟩
    cases hraw : ofRaw kind id address with
    | ok d => exact ⟨d, rfl⟩
    | error error =>
        rcases ofRaw_eq_error_iff.1 hraw with ⟨hlt, -⟩ | ⟨-, hle, -⟩
        · exact absurd hkind (Nat.not_le.2 hlt)
        · exact absurd hid (Nat.not_lt.2 hle)

end Descriptor

/-- Packing is an isomorphism of orders from tokens to the byte strings of 36 bytes that start with
the byte of a standard, and fields that may be out of range are packed exactly if they are those of
a token, the kind being looked at before the number. -/
theorem Token.pack_isomorphism :
    (∀ token : Token, ofBytes token.pack.bytes.toList = .ok token) ∧
    (∀ bytes : List UInt8, (∃ token, ofBytes bytes = .ok token) ↔
      bytes.length = 36 ∧ ∃ first ∈ bytes.head?, first.toNat ≤ 2) ∧
    (∀ (bytes : List UInt8) (token : Token), ofBytes bytes = .ok token ↔
      token.pack.bytes.toList = bytes ∧ token.id.value < 2 ^ 120) ∧
    (∀ a b : Token, compare a b = compare a.pack.bytes.toList b.pack.bytes.toList) ∧
    ∀ (kind : UInt8) (id : Nat) (address : Address),
      ((∃ d, Descriptor.ofRaw kind id address = .ok d) ↔ kind.toNat ≤ 2 ∧ id < 2 ^ 120) ∧
      (∀ d, Descriptor.ofRaw kind id address = .ok d ↔ ∃ token : Token,
        token.kind.byte = kind ∧ token.id.value = id ∧ token.address = address ∧
          token.pack = d) ∧
      ∀ error, Descriptor.ofRaw kind id address = .error error ↔
        2 < kind.toNat ∧ error = .outOfRange .tokenKind kind.toNat 2 ∨
          kind.toNat ≤ 2 ∧ 2 ^ 120 ≤ id ∧ error = .outOfRange .tokenId id (2 ^ 120 - 1) := by
  refine ⟨?_, ?_, ?_, ?_, ?_⟩
  · exact fun token => ofBytes_eq_ok_iff.2 rfl
  · exact fun bytes => exists_ofBytes_iff
  · intro bytes token
    rw [ofBytes_eq_ok_iff, ← TokenId.count_eq, and_iff_left token.id.value_lt, eq_comm]
  · exact fun a b => (compare_pack a b).symm
  · intro kind id address
    refine ⟨Descriptor.exists_ofRaw_iff, fun d => Descriptor.ofRaw_eq_ok_iff, ?_⟩
    exact fun error => Descriptor.ofRaw_eq_error_iff

end VaultBatch
