import Std.Data.TreeMap
import VaultBatch.Descriptor

/-!
# Token tables

The distinct tokens of a batch in ascending order, beside their descriptors in the same order. A
table is built from tokens in any order and with any repetitions, or read back from descriptors,
which have to be ascending.
-/

namespace VaultBatch

/-- The distinct tokens of a batch, beside their descriptors. -/
structure TokenTable where
  tokens : List Token
  entries : List Descriptor
  deriving DecidableEq

namespace TokenTable

/-- The table of no tokens. -/
def empty : TokenTable := ⟨[], []⟩

/-- The table of the tokens in a list. -/
def ofTokens (tokens : List Token) : TokenTable :=
  let sorted : Std.TreeMap Descriptor Token := .ofList (tokens.map fun token => (token.pack, token))
  ⟨sorted.toList.map (·.2), sorted.toList.map (·.1)⟩

/-- The first entry that is not above the one before it, with its place; the list starts at the
given place. -/
def firstDescent : Nat → List Descriptor → Option (Nat × Descriptor)
  | place, a :: b :: rest =>
    if compare a b = .lt then firstDescent (place + 1) (b :: rest) else some (place + 1, b)
  | _, _ => none

/-- Reads a table from its descriptors, which have to be ascending and to be those of tokens. -/
def ofEntries (entries : List Descriptor) : Except DecodeError TokenTable :=
  match firstDescent 0 entries with
  | some (place, entry) =>
    .error (.encoding (.malformed .tokenTable entry.hex (.notAscending place)))
  | none => do
    let tokens ← entries.mapM Descriptor.token
    return ⟨tokens, entries⟩

/-- The number of tokens. -/
def size (table : TokenTable) : Nat :=
  table.entries.length

/-- Whether there is no token. -/
def isEmpty (table : TokenTable) : Bool :=
  table.entries.isEmpty

/-- The token at a place. -/
def get? (table : TokenTable) (place : Nat) : Option Token :=
  table.tokens[place]?

/-- Looks for a descriptor at the places from `low` to below `high` of an ascending array, halving
them at each step. -/
def search (entries : Array Descriptor) (key : Descriptor) (low high : Nat) : Option Nat :=
  if low < high then
    let middle := (low + high) / 2
    match entries[middle]? with
    | none => none
    | some entry =>
      match compare entry key with
      | .eq => some middle
      | .lt => search entries key (middle + 1) high
      | .gt => search entries key low middle
  else none
termination_by high - low

/-- The place of a token. -/
def indexOf? (table : TokenTable) (token : Token) : Option Nat :=
  search table.entries.toArray token.pack 0 table.entries.length

/-- The places of all descriptors. -/
def places (table : TokenTable) : Std.TreeMap Descriptor Nat :=
  .ofList table.entries.zipIdx

end TokenTable
end VaultBatch
