import VaultBatch.Address

/-!
# Pools and gauges

The two kinds of account that operations act on besides tokens.
-/

namespace VaultBatch

/-- Whether an account is a pool or a gauge. -/
inductive TargetKind where
  | pool | gauge
  deriving DecidableEq

namespace TargetKind

/-- Both kinds. -/
def all : List TargetKind :=
  [pool, gauge]

/-- The name of a kind. -/
def name : TargetKind → String
  | pool => "pool"
  | gauge => "gauge"

/-- The kind of a name. -/
def ofName? (text : String) : Option TargetKind :=
  all.find? (·.name == text)

/-- A kind is found under its name. -/
@[simp] theorem ofName?_name (kind : TargetKind) : ofName? kind.name = some kind := by
  cases kind <;> decide

end TargetKind

/-- A pool or a gauge. -/
inductive Target where
  | pool (address : Address)
  | gauge (address : Address)
  deriving DecidableEq

namespace Target

/-- The byte that tells pools from gauges. -/
def discriminant : Target → UInt8
  | pool _ => 0
  | gauge _ => 1

/-- The account of a kind at an address. -/
def ofKind : TargetKind → Address → Target
  | .pool, address => pool address
  | .gauge, address => gauge address

/-- The kind of an account. -/
def kind : Target → TargetKind
  | pool _ => .pool
  | gauge _ => .gauge

/-- The address of a pool or gauge. -/
def address : Target → Address
  | pool address => address
  | gauge address => address

/-- A pool or gauge in words. -/
def display (target : Target) : String :=
  target.kind.name ++ ":" ++ target.address.hex

end Target
end VaultBatch
