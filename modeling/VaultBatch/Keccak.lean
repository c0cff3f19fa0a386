import VaultBatch.Bytes

/-!
# Keccak-256

The hash that names contract methods: a sponge over 25 lanes of 64 bits with a rate of 136 bytes
and the padding of the first Keccak submission, of which 32 bytes are taken. The lane in column
`x` and row `y` stands at place `x + 5 * y`.
-/

namespace VaultBatch.Keccak

/-- The 25 lanes. -/
abbrev State := Vector UInt64 25

/-- The number of bytes taken up in one block. -/
def rate : Nat := 136

/-- The lane in a column and a row, both counted around. -/
def lane (state : State) (x y : Nat) : UInt64 :=
  state.get ⟨x % 5 + 5 * (y % 5), by omega⟩

/-- The bits of a lane turned to the left. -/
def rotate (word : UInt64) (count : Nat) : UInt64 :=
  (word <<< UInt64.ofNat count) ||| (word >>> UInt64.ofNat (64 - count))

/-- How far each lane is turned, by place. -/
def rotations : Vector Nat 25 :=
  #v[0, 1, 62, 28, 27, 36, 44, 6, 55, 20, 3, 10, 43, 25, 39, 41, 45, 15, 21, 8, 18, 2, 61, 56, 14]

/-- What is added to the first lane, by round. -/
def roundConstants : List UInt64 :=
  [0x0000000000000001, 0x0000000000008082, 0x800000000000808a, 0x8000000080008000,
    0x000000000000808b, 0x0000000080000001, 0x8000000080008081, 0x8000000000008009,
    0x000000000000008a, 0x0000000000000088, 0x0000000080008009, 0x000000008000000a,
    0x000000008000808b, 0x800000000000008b, 0x8000000000008089, 0x8000000000008003,
    0x8000000000008002, 0x8000000000000080, 0x000000000000800a, 0x800000008000000a,
    0x8000000080008081, 0x8000000000008080, 0x0000000080000001, 0x8000000080008008]

/-- The parity of a column. -/
def column (state : State) (x : Nat) : UInt64 :=
  lane state x 0 ^^^ lane state x 1 ^^^ lane state x 2 ^^^ lane state x 3 ^^^ lane state x 4

/-- Adds to every lane the parities of the columns beside its own. -/
def mixColumns (state : State) : State :=
  let parities : Vector UInt64 5 := Vector.ofFn fun x => column state x
  Vector.ofFn fun i =>
    state.get i ^^^ parities.get ⟨(i.val + 4) % 5, by omega⟩ ^^^
      rotate (parities.get ⟨(i.val + 1) % 5, by omega⟩) 1

/-- Turns every lane by its own count. -/
def rotateLanes (state : State) : State :=
  Vector.ofFn fun i => rotate (state.get i) (rotations.get i)

/-- Moves the lanes to new places. -/
def moveLanes (state : State) : State :=
  Vector.ofFn fun i => lane state (i.val % 5 + 3 * (i.val / 5)) (i.val % 5)

/-- Joins every lane with the next two of its row. -/
def mixRows (state : State) : State :=
  Vector.ofFn fun i =>
    state.get i ^^^
      (~~~(lane state (i.val % 5 + 1) (i.val / 5)) &&& lane state (i.val % 5 + 2) (i.val / 5))

/-- One round with its constant. -/
def round (state : State) (constant : UInt64) : State :=
  let mixed := mixRows (moveLanes (rotateLanes (mixColumns state)))
  mixed.set 0 (mixed.get 0 ^^^ constant)

/-- All rounds. -/
def permute (state : State) : State :=
  roundConstants.foldl round state

/-- The word that eight bytes stand for, least significant first. -/
def wordOfBytes (bytes : List UInt8) : UInt64 :=
  bytes.foldr (fun byte word => word <<< 8 ||| byte.toUInt64) 0

/-- The eight bytes of a word, least significant first. -/
def bytesOfWord (word : UInt64) : List UInt8 :=
  (List.range 8).map fun i => (word >>> UInt64.ofNat (8 * i)).toUInt8

/-- Adds a block of bytes to the lanes. -/
def addBlock (state : State) (block : List UInt8) : State :=
  Vector.ofFn fun i => state.get i ^^^ wordOfBytes ((block.drop (8 * i.val)).take 8)

/-- Fills the last block: one bit after the message and one at the end of the block. -/
def pad (message : List UInt8) : List UInt8 :=
  let missing := rate - message.length % rate
  if missing = 1 then message ++ [0x81]
  else message ++ 0x01 :: List.replicate (missing - 2) 0 ++ [0x80]

/-- Takes up a number of blocks. -/
def absorb : Nat → State → List UInt8 → State
  | 0, state, _ => state
  | blocks + 1, state, bytes =>
    absorb blocks (permute (addBlock state (bytes.take rate))) (bytes.drop rate)

/-- The hash of a message. -/
def hash (message : List UInt8) : Bytes 32 :=
  let padded := pad message
  let state := absorb (padded.length / rate) (Vector.replicate 25 0) padded
  ⟨bytesOfWord (lane state 0 0) ++ bytesOfWord (lane state 1 0) ++ bytesOfWord (lane state 2 0) ++
    bytesOfWord (lane state 3 0), by simp [bytesOfWord]⟩

end VaultBatch.Keccak
