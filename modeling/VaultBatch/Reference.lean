import VaultBatch.Target
import VaultBatch.Token

/-!
# References

What an operation acts on: a token, a pool or a gauge.
-/

namespace VaultBatch

/-- What an operation acts on. -/
inductive Reference where
  | token (token : Token)
  | target (target : Target)
  deriving DecidableEq

namespace Reference

/-- The address of what is referred to. -/
def address : Reference → Address
  | .token t => t.address
  | .target t => t.address

/-- Makes a reference of fields that may be missing. A kind of target has no token standard and no
token number beside it; a token standard has a number or stands for the number zero. -/
def ofFields (target : Option TargetKind) (kind : Option TokenKind) (id : Option TokenId)
    (address : Address) : Except EncodingError Reference :=
  match target, kind with
  | some _, some kind => .error (.malformed .reference address.hex (.targetWithKind kind))
  | some target, none =>
    if id.isSome then .error (.malformed .reference address.hex .targetWithId)
    else .ok (.target (.ofKind target address))
  | none, some kind => .ok (.token ⟨kind, id.getD .zero, address⟩)
  | none, none => .error (.malformed .reference address.hex .noTargetNorKind)

/-- A reference in words. -/
def display : Reference → String
  | .token t => t.display
  | .target t => t.display

end Reference
end VaultBatch
