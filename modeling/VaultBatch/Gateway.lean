import VaultBatch.Calldata
import VaultBatch.Compile

/-!
# Gateways

Where a compiled batch is handed to. A gateway has a state, takes the descriptors, deposits and
operations of a batch, and answers with a receipt or an error. Operations that do not compile
never reach it.
-/

namespace VaultBatch

/-- The parts of a batch that a gateway gets. -/
structure GatewayCall where
  entries : List Descriptor
  deposits : List Amount
  operations : List CompiledOperation
  deriving DecidableEq

/-- The call that hands a batch over. -/
def Batch.call (batch : Batch) : GatewayCall :=
  ⟨batch.table.entries, batch.deposits, batch.operations⟩

/-- A place that batches are handed to, with a state of type `σ`. -/
structure Gateway (σ ρ ε : Type) where
  execute : GatewayCall → σ → Except ε ρ × σ

/-- Why operations were not executed. -/
inductive ExecuteError (ε : Type) where
  /-- They do not compile. -/
  | compile (error : CompileError)
  /-- The gateway refused them. -/
  | gateway (error : ε)
  deriving DecidableEq

/-- The fault in words, given the gateway's own. -/
def ExecuteError.message {ε : Type} (words : ε → String) : ExecuteError ε → String
  | .compile error => error.message
  | .gateway error => "Execution gateway failed: " ++ words error

namespace Gateway

variable {σ ρ ε : Type}

/-- Compiles operations and hands the batch to a gateway. -/
def run (gateway : Gateway σ ρ ε) (limits : Limits) (operations : List Operation) (state : σ) :
    Except (ExecuteError ε) ρ × σ :=
  match Batch.compile limits operations with
  | .error error => (.error (.compile error), state)
  | .ok batch =>
    let (answer, next) := gateway.execute batch.call state
    (answer.mapError .gateway, next)

/-- The gateway that answers with the bytes of the call. -/
def calldata : Gateway Unit (List UInt8) Calldata.Error where
  execute call state := (Calldata.encodeParts call.entries call.deposits call.operations, state)

/-- The gateway that keeps all calls and answers with their number. -/
def recording : Gateway (List GatewayCall) Nat Empty where
  execute call log := (.ok (log.length + 1), log ++ [call])

end Gateway
end VaultBatch
