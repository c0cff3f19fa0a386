import VaultBatch.Json.Reader
import VaultBatch.Json.Writer

/-!
# Amounts as JSON

A policy is a name and an amount a string of decimal digits, since it may be too large for readers
of plain numbers.
-/

namespace VaultBatch

namespace AmountKind

/-- Writes a policy. -/
def writeJson (kind : AmountKind) : List Char :=
  Json.Writer.text kind.name

/-- Reads a policy. -/
def readJson : Json.Reader AmountKind :=
  Json.oneOf ofName? ["exactly", "at most", "at_most", "all"]

end AmountKind

namespace Amount

/-- Writes an amount. -/
def writeJson (amount : Amount) : List Char :=
  Json.Writer.text amount.display

/-- Reads an amount. -/
def readJson : Json.Reader Amount :=
  Json.checkedString fun text => (parse text).mapError .encoding

end Amount
end VaultBatch
