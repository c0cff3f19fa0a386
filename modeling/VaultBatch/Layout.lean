import VaultBatch.Amount
import VaultBatch.Token

/-!
# Layouts of packed bytes

Where the fields of a descriptor and of a packed instruction stand: each starts where the one before
it ends. The types of packed bytes, packing and reading all take their widths and places from here.
-/

namespace VaultBatch

namespace Descriptor

/-- The number of bytes of the kind. -/
abbrev kindWidth : Nat := 1

/-- Where the token number starts. -/
abbrev idOffset : Nat := kindWidth

/-- Where the address starts. -/
abbrev addressOffset : Nat := idOffset + TokenId.width

/-- The number of bytes of a descriptor. -/
abbrev width : Nat := addressOffset + Address.width

end Descriptor

namespace PackedInstruction

/-- The number of bytes of the place in the table. -/
abbrev indexWidth : Nat := 1

/-- The number of bytes of the policy. -/
abbrev kindWidth : Nat := 1

/-- The number of reserved bytes. -/
abbrev reservedWidth : Nat := 14

/-- The number of bytes of the amount. -/
abbrev amountWidth : Nat := Amount.width

/-- Where the policy starts. -/
abbrev kindOffset : Nat := indexWidth

/-- Where the reserved bytes start. -/
abbrev reservedOffset : Nat := kindOffset + kindWidth

/-- Where the amount starts. -/
abbrev amountOffset : Nat := reservedOffset + reservedWidth

/-- The number of bytes of a packed instruction. -/
abbrev width : Nat := amountOffset + amountWidth

end PackedInstruction

/-- The two forms of packed bytes. -/
inductive Layout where
  | descriptor | instruction
  deriving DecidableEq

namespace Layout

/-- The form in words. -/
def name : Layout → String
  | descriptor => "reference"
  | instruction => "amount instruction"

/-- The number of bytes of the form. -/
abbrev width : Layout → Nat
  | descriptor => Descriptor.width
  | instruction => PackedInstruction.width

end Layout
end VaultBatch
