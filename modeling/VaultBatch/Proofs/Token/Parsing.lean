import Mathlib.Algebra.Group.Nat.Defs
import VaultBatch.Proofs.Bytes.HexForm
import VaultBatch.Proofs.Text.Blank
import VaultBatch.Proofs.Token.Order

/-!
# Tokens from texts

Callers give a token as the name of its standard, or nothing for a fungible one, its number and the
digits of its address. `Token.GivenBy` says which token these stand for, without any reader:
`Token.parse_eq_ok_iff_givenBy` says that this token is read, and `Token.parse_eq_error_iff` that
otherwise the first of the three that is at fault is reported, whatever the others are.
-/

namespace VaultBatch

/-! ## Standards -/

namespace TokenKind

variable {kind : TokenKind} {text : String} {given : Option String} {error : EncodingError}

/-- A standard is parsed exactly from the spellings of its name. -/
theorem parse_eq_ok_iff : parse text = .ok kind ↔ Text.IsSpelling kind.name text := by
  rw [parse, Field.known_eq_ok_iff, ofName?_eq_some_iff, Text.isSpelling_iff]

/-- A standard is refused exactly if the text spells the name of none. -/
theorem parse_eq_error_iff :
    parse text = .error error ↔
      (∀ kind : TokenKind, ¬ Text.IsSpelling kind.name text) ∧
        error = .unknownKind .tokenKind text := by
  simp only [← parse_eq_ok_iff]
  refine eq_error_iff_of_cause ?_
  intro other h
  exact (Field.known_eq_error_iff.1 h).2

/-- The standard is the one that is named, or the fungible one if none is. -/
def GivenBy (kind : TokenKind) : Option String → Prop
  | none => kind = .erc20
  | some text => Text.IsSpelling kind.name text

/-- A standard is read from its name, or without one. -/
theorem elim_parse_eq_ok_iff :
    given.elim (.ok .erc20) parse = .ok kind ↔ kind.GivenBy given := by
  cases given with
  | none =>
      rw [Option.elim_none, Except.ok.injEq]
      exact eq_comm
  | some text => rw [Option.elim_some, parse_eq_ok_iff, GivenBy]

/-- A standard is refused exactly if one is given and its text spells the name of none. -/
theorem elim_parse_eq_error_iff :
    given.elim (.ok .erc20) parse = .error error ↔
      ∃ name ∈ given, (∀ kind : TokenKind, ¬ Text.IsSpelling kind.name name) ∧
        error = .unknownKind .tokenKind name := by
  cases given with
  | none => simp
  | some text =>
      rw [Option.elim_some, parse_eq_error_iff]
      simp

/-- A standard is given if none is named, or one that there is. -/
theorem exists_givenBy_iff :
    (∃ kind : TokenKind, kind.GivenBy given) ↔
      ∀ text ∈ given, ∃ name ∈ ["erc20", "erc721", "erc1155"], Text.IsSpelling name text := by
  have hnames : ["erc20", "erc721", "erc1155"] = all.map name := rfl
  have hall : ∀ kind : TokenKind, kind ∈ all := by
    intro kind
    cases kind <;> decide
  rw [hnames]
  cases given with
  | none => simp [GivenBy]
  | some text => simp [GivenBy, hall]

end TokenKind

/-! ## Addresses -/

namespace Address

variable {address : Address} {text : String} {error : EncodingError}

/-- The digits of the address are the text, but for a mark before them. -/
def GivenBy (address : Address) (text : String) : Prop :=
  ∃ digits, Hex.Unmarked ["0x", "0X"] text.toList digits ∧ Hex.Pairs digits address.bytes.toList

/-- Why a text is no address: what stands behind the mark is no digits in pairs, or not forty. -/
inductive Flawed (text : String) : Flaw → Prop where
  | hex {digits : List Char} {flaw : Hex.Flaw} :
      Hex.Unmarked ["0x", "0X"] text.toList digits → Hex.Flawed digits flaw →
      Flawed text (.hex flaw)
  | width {digits : List Char} :
      Hex.Unmarked ["0x", "0X"] text.toList digits → digits.length % 2 = 0 →
      (∀ c ∈ digits, Hex.IsDigit c) → digits.length ≠ 40 →
      Flawed text (.width 20 (digits.length / 2))

/-- An address is parsed exactly from a text that it is given by. -/
theorem parse_eq_ok_iff : parse text = .ok address ↔ address.GivenBy text := by
  simp only [GivenBy, Hex.unmarked_iff, exists_eq_left']
  rw [parse_eq_readValue (Hex.unmarked_iff.2 rfl), Hex.readValue_eq_ok_iff]
  constructor
  · intro h
    obtain ⟨own, hpairs, rfl⟩ := h
    exact hpairs
  · intro h
    exact ⟨address.bytes, h, rfl⟩

/-- An address is refused exactly for the flaws of its text. -/
theorem parse_eq_error_iff :
    parse text = .error error ↔ ∃ flaw, Flawed text flaw ∧ error = .malformed .address text flaw := by
  have hmark : Hex.Unmarked ["0x", "0X"] text.toList (Hex.dropAnyMark text.toList) :=
    Hex.unmarked_iff.2 rfl
  rw [parse_eq_readValue hmark, Hex.readValue_eq_error_iff]
  constructor
  · intro h
    rcases h with ⟨flaw, hflaw, rfl⟩ | ⟨⟨heven, hdigits⟩, hwidth, rfl⟩
    · exact ⟨_, .hex hmark hflaw, rfl⟩
    · exact ⟨_, .width hmark heven hdigits hwidth, rfl⟩
  · intro h
    obtain ⟨flaw, hflaw, rfl⟩ := h
    cases hflaw with
    | hex hother hflaw =>
        rw [Hex.unmarked_iff.1 hother]
        exact .inl ⟨_, hflaw, rfl⟩
    | width hother heven hdigits hwidth =>
        rw [Hex.unmarked_iff.1 hother]
        exact .inr ⟨⟨heven, hdigits⟩, hwidth, rfl⟩

/-- A text is an address exactly if there are forty digits behind the mark. -/
theorem exists_givenBy_iff :
    (∃ address : Address, address.GivenBy text) ↔
      ∃ digits, Hex.Unmarked ["0x", "0X"] text.toList digits ∧ digits.length = 40 ∧
        ∀ c ∈ digits, Hex.IsDigit c := by
  simp only [GivenBy, Hex.unmarked_iff, exists_eq_left']
  rw [← @Hex.exists_pairs_width_iff 20]
  constructor
  · intro h
    obtain ⟨address, hpairs⟩ := h
    exact ⟨address.bytes, hpairs⟩
  · intro h
    obtain ⟨own, hpairs⟩ := h
    exact ⟨⟨own⟩, hpairs⟩

end Address

/-! ## Tokens -/

/-- A number is a token number exactly if it is small enough. -/
theorem TokenId.exists_ofNat_iff {n : Nat} : (∃ id, ofNat n = .ok id) ↔ n < 2 ^ 120 := by
  have hcause : ∀ error, ofNat n = .error error ↔
      2 ^ 120 ≤ n ∧ error = .outOfRange .tokenId n (2 ^ 120 - 1) := fun _ => ofNat_eq_error_iff
  rw [exists_ok_iff hcause, Nat.not_le]

namespace Token

variable {token : Token} {kind : Option String} {id : Nat} {address : String}
  {error : EncodingError}

/-- Each part of the token is what is given for it. -/
structure GivenBy (token : Token) (kind : Option String) (id : Nat) (address : String) : Prop where
  kind : token.kind.GivenBy kind
  id : token.id.value = id
  address : token.address.GivenBy address

/-- The first fault of what is given for a token. -/
inductive Refused (kind : Option String) (id : Nat) (address : String) : EncodingError → Prop where
  | kind {name : String} :
      name ∈ kind → (∀ known : TokenKind, ¬ Text.IsSpelling known.name name) →
      Refused kind id address (.unknownKind .tokenKind name)
  | id {known : TokenKind} :
      known.GivenBy kind → 2 ^ 120 ≤ id →
      Refused kind id address (.outOfRange .tokenId id (2 ^ 120 - 1))
  | address {known : TokenKind} {flaw : Flaw} :
      known.GivenBy kind → id < 2 ^ 120 → Address.Flawed address flaw →
      Refused kind id address (.malformed .address address flaw)

/-- A token is parsed part by part: its standard, its number and its address. -/
theorem parse_eq_bind :
    parse kind id address =
      kind.elim (.ok .erc20) TokenKind.parse >>= fun kind =>
        TokenId.ofNat id >>= fun id =>
          Address.parse address >>= fun address => .ok ⟨kind, id, address⟩ := by
  cases kind with
  | none => rfl
  | some name =>
      simp only [parse, Option.elim_some]
      rfl

/-- A token is parsed exactly if each of its parts is. -/
theorem parse_eq_ok_iff_elim :
    parse kind id address = .ok token ↔
      kind.elim (.ok .erc20) TokenKind.parse = .ok token.kind ∧
        TokenId.ofNat id = .ok token.id ∧ Address.parse address = .ok token.address := by
  simp only [parse_eq_bind, bind_eq_ok_iff]
  constructor
  · intro h
    obtain ⟨_, hkind, _, hid, _, haddress, h⟩ := h
    cases h
    exact ⟨hkind, hid, haddress⟩
  · intro h
    obtain ⟨hkind, hid, haddress⟩ := h
    exact ⟨_, hkind, _, hid, _, haddress, rfl⟩

/-- A token is parsed exactly from the parts that it is given by. -/
theorem parse_eq_ok_iff_givenBy :
    parse kind id address = .ok token ↔ token.GivenBy kind id address := by
  rw [parse_eq_ok_iff_elim, TokenKind.elim_parse_eq_ok_iff, TokenId.ofNat_eq_ok_iff,
    Address.parse_eq_ok_iff]
  constructor
  · intro h
    obtain ⟨hkind, hid, haddress⟩ := h
    exact ⟨hkind, hid, haddress⟩
  · intro h
    exact ⟨h.kind, h.id, h.address⟩

/-- A token is refused exactly for the first of its parts that is. -/
theorem parse_eq_error_iff :
    parse kind id address = .error error ↔ Refused kind id address error := by
  simp only [parse_eq_bind, bind_eq_error_iff, TokenKind.elim_parse_eq_error_iff,
    TokenKind.elim_parse_eq_ok_iff, TokenId.ofNat_eq_error_iff, Address.parse_eq_error_iff,
    reduceCtorEq, and_false, exists_false, or_false]
  constructor
  · intro h
    rcases h with ⟨name, hname, hnone, rfl⟩ | ⟨known, hknown, h⟩
    · exact .kind hname hnone
    · rcases h with ⟨hid, rfl⟩ | ⟨number, hnumber, flaw, hflaw, rfl⟩
      · exact .id hknown hid
      · exact .address hknown (TokenId.exists_ofNat_iff.1 ⟨number, hnumber⟩) hflaw
  · intro h
    cases h with
    | kind hname hnone => exact .inl ⟨_, hname, hnone, rfl⟩
    | id hknown hid => exact .inr ⟨_, hknown, .inl ⟨hid, rfl⟩⟩
    | address hknown hid hflaw =>
        obtain ⟨number, hnumber⟩ := TokenId.exists_ofNat_iff.2 hid
        exact .inr ⟨_, hknown, .inr ⟨number, hnumber, _, hflaw, rfl⟩⟩

end Token
end VaultBatch
