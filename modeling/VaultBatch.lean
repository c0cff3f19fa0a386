import VaultBatch.Batch.Json
import VaultBatch.Gateway
import VaultBatch.Limits.Json
import VaultBatch.Limits.Toml
import VaultBatch.Operation.Json
import VaultBatch.Proofs.Calldata.RoundTrip
import VaultBatch.Proofs.Compile.Meaning
import VaultBatch.Proofs.Compile.Outcome
import VaultBatch.Proofs.Compile.Reordering
import VaultBatch.Proofs.Calldata.Intent
import VaultBatch.Proofs.Compile.Concatenation
import VaultBatch.Proofs.TokenTable.Refusal
import VaultBatch.Proofs.Abi.Value
import VaultBatch.Proofs.Amount
import VaultBatch.Proofs.Batch.Refusal
import VaultBatch.Proofs.Calldata.Untyped
import VaultBatch.Proofs.Abi.LongRegion
import VaultBatch.Proofs.Calldata.Outcome
import VaultBatch.Proofs.Token.Order
import VaultBatch.Proofs.Gateway
import VaultBatch.Proofs.Batch.Admission
import VaultBatch.Proofs.Operation.RoundTrip
import VaultBatch.Proofs.TokenTable.Canonical
import VaultBatch.Proofs.TokenTable.Lookup
import VaultBatch.Proofs.PackedInstruction
import VaultBatch.Proofs.Batch.FirstFault
import VaultBatch.Proofs.Reference.Readings
import VaultBatch.Proofs.Json.Spelling
import VaultBatch.Proofs.Json.Decoding
import VaultBatch.Proofs.Json.Members
import VaultBatch.Proofs.Token.Json
import VaultBatch.Proofs.Reference.Selection
import VaultBatch.Proofs.Operation.Agreement
import VaultBatch.Proofs.Calldata.Deposit
import VaultBatch.Proofs.Amount.Direction
import VaultBatch.Proofs.Amount.Text
import VaultBatch.Proofs.Bytes.HexForm
import VaultBatch.Proofs.Calldata.Size
import VaultBatch.Proofs.Operation.Parsing
import VaultBatch.Proofs.Reference.Display
import VaultBatch.Proofs.Limits.Toml
