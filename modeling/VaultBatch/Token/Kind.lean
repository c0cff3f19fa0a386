import VaultBatch.Kinds

/-!
# Token standards

The three standards that a token may follow, each with a name and a byte. `ofByte?_eq_some_iff` and
`ofName?_eq_some_iff` say that names and bytes are read back as what they were written for, and
that nothing else is read.
-/

namespace VaultBatch

/-- The standard that a token follows. -/
inductive TokenKind where
  /-- Fungible tokens, one per contract. -/
  | erc20
  /-- Single tokens told apart by their number. -/
  | erc721
  /-- Many token types in one contract, told apart by their number. -/
  | erc1155
  deriving DecidableEq

namespace TokenKind

/-- The standards in the order of their bytes. -/
def all : List TokenKind :=
  [erc20, erc721, erc1155]

/-- The name of a standard. -/
def name : TokenKind → String
  | erc20 => "erc20"
  | erc721 => "erc721"
  | erc1155 => "erc1155"

/-- The byte of a standard. -/
def byte : TokenKind → UInt8
  | erc20 => 0
  | erc721 => 1
  | erc1155 => 2

/-- The standard of a byte. -/
def ofByte? (b : UInt8) : Option TokenKind :=
  all.find? (·.byte == b)

/-- The standard of a name. -/
def ofName? (text : String) : Option TokenKind :=
  all.find? (·.name == text)

/-- A standard is found under its byte. -/
theorem ofByte?_byte (kind : TokenKind) : ofByte? kind.byte = some kind := by
  cases kind <;> rfl

/-- A standard is found under its name. -/
theorem ofName?_name (kind : TokenKind) : ofName? kind.name = some kind := by
  cases kind <;> decide

/-- A standard is found under its byte and under no other. -/
theorem ofByte?_eq_some_iff {b : UInt8} {kind : TokenKind} :
    ofByte? b = some kind ↔ kind.byte = b :=
  find?_mark_eq_some_iff ofByte?_byte

/-- A standard is found under its name and under no other. -/
theorem ofName?_eq_some_iff {text : String} {kind : TokenKind} :
    ofName? text = some kind ↔ kind.name = text :=
  find?_mark_eq_some_iff ofName?_name

/-- Standards with the same byte are the same. -/
theorem byte_injective {a b : TokenKind} (h : a.byte = b.byte) : a = b :=
  mark_injective ofByte?_byte h

/-- Standards with the same name are the same. -/
theorem name_injective {a b : TokenKind} (h : a.name = b.name) : a = b :=
  mark_injective ofName?_name h

/-- The largest byte of a standard. -/
def maxByte : Nat := 2

/-- A byte belongs to a standard exactly if it is not above the largest one. -/
theorem ofByte?_isSome_iff {b : UInt8} : (ofByte? b).isSome ↔ b.toNat ≤ maxByte :=
  (isSome_find?_byte_iff rfl).trans Nat.lt_succ_iff

end TokenKind
end VaultBatch
