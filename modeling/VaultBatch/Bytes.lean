/-!
# Byte strings of a fixed width

`Bytes width` holds exactly `width` bytes. Its only view is the list of its bytes, in which
equality (`Bytes.ext`), order and slices are stated. The order is the order of dictionaries
on unsigned bytes.
-/

namespace VaultBatch

/-- A byte string of exactly `width` bytes. -/
structure Bytes (width : Nat) where
  /-- The bytes, first to last. -/
  toList : List UInt8
  length_toList : toList.length = width
  deriving DecidableEq

namespace Bytes

attribute [simp] length_toList

variable {width : Nat}

/-- Byte strings with the same bytes are equal. -/
theorem ext {a b : Bytes width} (h : a.toList = b.toList) : a = b := by
  cases a
  cases b
  cases h
  rfl

/-- Byte strings are equal exactly if their bytes are. -/
theorem toList_inj {a b : Bytes width} : a.toList = b.toList ↔ a = b :=
  ⟨ext, congrArg toList⟩

/-- The byte string of the given bytes, if they are as many as its width. -/
def ofList? (width : Nat) (bytes : List UInt8) : Option (Bytes width) :=
  if h : bytes.length = width then some ⟨bytes, h⟩ else none

/-- Bytes make a byte string exactly if they are its bytes. -/
theorem ofList?_eq_some_iff {bytes : List UInt8} {b : Bytes width} :
    ofList? width bytes = some b ↔ bytes = b.toList := by
  unfold ofList?
  constructor
  · intro h
    split at h
    · cases h
      rfl
    · cases h
  · rintro rfl
    simp

/-- Bytes make no byte string exactly if their number is not the width. -/
theorem ofList?_eq_none_iff {bytes : List UInt8} :
    ofList? width bytes = none ↔ bytes.length ≠ width := by
  simp [ofList?]

/-- The bytes of a byte string make it again. -/
@[simp] theorem ofList?_toList (b : Bytes width) : ofList? width b.toList = some b :=
  ofList?_eq_some_iff.2 rfl

/-- The byte string of zeros. -/
def zero (width : Nat) : Bytes width :=
  ⟨List.replicate width 0, List.length_replicate⟩

/-- A byte string is zero exactly if each of its bytes is. -/
theorem eq_zero_iff {b : Bytes width} : b = zero width ↔ ∀ byte ∈ b.toList, byte = 0 := by
  rw [← toList_inj, zero, List.eq_replicate_iff, and_iff_right b.length_toList]

/-- How many byte strings of a width there are. -/
def count : Nat → Nat
  | 0 => 1
  | width + 1 => 256 * count width

/-- There is a byte string of every width. -/
theorem count_pos (width : Nat) : 0 < count width := by
  induction width with
  | zero => decide
  | succ width ih => simp only [count]; omega

/-- Two byte strings one after the other. -/
def append {m n : Nat} (a : Bytes m) (b : Bytes n) : Bytes (m + n) :=
  ⟨a.toList ++ b.toList, by simp⟩

/-- The bytes of two strings joined are those of the first and then those of the second. -/
@[simp] theorem toList_append {m n : Nat} (a : Bytes m) (b : Bytes n) :
    (a.append b).toList = a.toList ++ b.toList := rfl

/-- The first byte. -/
def head (b : Bytes (width + 1)) : UInt8 :=
  b.toList.head (List.ne_nil_of_length_eq_add_one b.length_toList)

/-- The `count` bytes from position `start` on. -/
def slice (b : Bytes width) (start count : Nat) (h : start + count ≤ width := by decide) :
    Bytes count :=
  ⟨(b.toList.drop start).take count, by simp; omega⟩

/-- The bytes of a slice. -/
theorem toList_slice (b : Bytes width) {start count : Nat} (h : start + count ≤ width) :
    (b.slice start count h).toList = (b.toList.drop start).take count := rfl

/-- A byte string is its first byte and the others. -/
theorem toList_eq_head_cons (b : Bytes (width + 1)) : b.toList = b.head :: b.toList.drop 1 := by
  rw [head, List.drop_one, List.cons_head_tail]

/-- What stands behind a position is a slice from there on and what stands behind the slice. -/
theorem drop_eq_slice_append (b : Bytes width) {start count : Nat} (h : start + count ≤ width) :
    b.toList.drop start = (b.slice start count h).toList ++ b.toList.drop (start + count) := by
  rw [← List.drop_drop, toList_slice, List.take_append_drop]

/-- Nothing stands behind the last byte. -/
theorem drop_width (b : Bytes width) : b.toList.drop width = [] :=
  List.drop_of_length_le (Nat.le_of_eq b.length_toList)

/-- One byte is its first byte. -/
theorem toList_eq_head (b : Bytes 1) : b.toList = [b.head] := by
  rw [toList_eq_head_cons, drop_width]

/-- A byte string that stands at a position is the slice from there on. -/
theorem slice_eq_of_drop {b : Bytes width} {start count : Nat} {own : Bytes count}
    {rest : List UInt8} (h : start + count ≤ width)
    (hdrop : b.toList.drop start = own.toList ++ rest) : b.slice start count h = own := by
  apply ext
  rw [toList_slice, hdrop, List.take_left' own.length_toList]

/-- Byte strings are compared byte by byte, the first difference deciding. -/
instance : Ord (Bytes width) where
  compare a b := compare a.toList b.toList

instance : Std.TransOrd (Bytes width) where
  eq_swap {a b} := Std.OrientedOrd.eq_swap (a := a.toList) (b := b.toList)
  isLE_trans {a b c} := Std.TransOrd.isLE_trans (a := a.toList) (b := b.toList) (c := c.toList)

instance : Std.LawfulEqOrd (Bytes width) where
  compare_self {a} := Std.ReflOrd.compare_self (a := a.toList)
  eq_of_compare {a b} h :=
    ext (Std.LawfulEqOrd.eq_of_compare (a := a.toList) (b := b.toList) h)

end Bytes
end VaultBatch
