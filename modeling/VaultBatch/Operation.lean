import VaultBatch.Amount
import VaultBatch.Reference

/-!
# Operations

What a caller asks for: instructions that move amounts of tokens, grouped into operations on a
pool, a gauge or a token. The order of operations and of their instructions matters to the vault.
-/

namespace VaultBatch

/-- Moves an amount of a token under a policy. -/
structure Instruction where
  token : Token
  kind : AmountKind
  amount : Amount
  deriving DecidableEq

/-- Reads an instruction from texts. The fields are read in the order token standard, token number,
address, policy, amount, and the first faulty one is reported. -/
def Instruction.parse (address : String) (tokenKind : Option String) (id : Nat)
    (amountKind amount : String) : Except EncodingError Instruction := do
  let token ← Token.parse tokenKind id address
  let kind ← AmountKind.parse amountKind
  let amount ← Amount.parse amount
  return ⟨token, kind, amount⟩

/-- Instructions on one pool, gauge or token. -/
structure Operation where
  reference : Reference
  instructions : List Instruction
  deriving DecidableEq

/-- The tokens that the instructions of an operation name. -/
def Operation.tokens (operation : Operation) : List Token :=
  operation.instructions.map (·.token)

end VaultBatch
