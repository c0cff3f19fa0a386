import VaultBatch.Bytes.BigEndian

/-!
# Bits

The bits of a byte string, counted from the last one on, which counts for one.
-/

namespace VaultBatch.Bytes

variable {width : Nat}

/-- The byte string with every bit turned around. -/
def complement (b : Bytes width) : Bytes width :=
  ⟨b.toList.map (~~~ ·), by simp⟩

/-- The bit at a place. -/
def bit (b : Bytes width) (place : Nat) : Bool :=
  (BigEndian.decode b).testBit place

/-- The number of bits without the zeros in front. -/
def bitLength (b : Bytes width) : Nat :=
  let n := BigEndian.decode b
  if n = 0 then 0 else n.log2 + 1

end VaultBatch.Bytes
