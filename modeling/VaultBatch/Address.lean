import VaultBatch.Bytes
import VaultBatch.EncodingError

/-!
# Addresses

The 20 bytes that name an account or a contract. An address is written as `0x` and 40 lower case
digits, and read with digits of either case, with `0x`, `0X` or nothing before them.
-/

namespace VaultBatch

/-- The number of bytes in an address. -/
abbrev Address.width : Nat := 20

/-- The name of an account or a contract. -/
structure Address where
  bytes : Bytes Address.width
  deriving DecidableEq

namespace Address

/-- The address of zeros. -/
def zero : Address := ⟨Bytes.zero width⟩

/-- Addresses are ordered as their bytes. -/
instance : Ord Address where
  compare a b := compare a.bytes b.bytes

/-- An address as `0x` and its digits. -/
def hex (a : Address) : String :=
  String.ofList (Hex.encodeMarked a.bytes.toList)

/-- Reads an address from its digits. -/
def parse (text : String) : Except EncodingError Address :=
  match Hex.decode (Hex.dropAnyMark text.toList) with
  | .error flaw => .error (.malformed .address text (.hex flaw))
  | .ok bytes =>
    match Bytes.ofList? width bytes with
    | some bytes => .ok ⟨bytes⟩
    | none => .error (.malformed .address text (.width width bytes.length))

/-- A written address is read back. -/
theorem parse_hex (a : Address) : parse a.hex = .ok a := by
  simp [parse, hex, Hex.decode_encode]

end Address
end VaultBatch
