/-!
# Kinds and their marks

The kinds of a thing are a list, and each has a mark, such as a byte or a name, by which it is looked
up: the first kind with a mark is the one that is found. If every kind is found under its own mark,
then a kind is found under a mark exactly if it is its own (`find?_mark_eq_some_iff`), and the mark
tells the kinds apart (`mark_injective`). Kinds that are counted by their bytes are found under the
bytes below their number (`isSome_find?_byte_iff`).
-/

namespace VaultBatch

section Marks

variable {α β : Type} [BEq β] {kinds : List α} {mark : α → β}
  (hfind : ∀ kind, kinds.find? (mark · == mark kind) = some kind)

include hfind

/-- A kind is found under its own mark and under no other. -/
theorem find?_mark_eq_some_iff [LawfulBEq β] {key : β} {kind : α} :
    kinds.find? (mark · == key) = some kind ↔ mark kind = key := by
  constructor
  · intro h
    simpa using List.find?_some h
  · intro h
    subst h
    exact hfind kind

/-- Kinds with the same mark are the same. -/
theorem mark_injective {a b : α} (h : mark a = mark b) : a = b := by
  have hfound := hfind a
  rw [h, hfind b] at hfound
  exact (Option.some.inj hfound).symm

end Marks

/-- If the bytes of the kinds count them from zero, the bytes below their number are those of a
kind. -/
theorem isSome_find?_byte_iff {α : Type} {kinds : List α} {byte : α → UInt8}
    (hcount : kinds.map (fun kind => (byte kind).toNat) = List.range kinds.length) {b : UInt8} :
    (kinds.find? (byte · == b)).isSome ↔ b.toNat < kinds.length := by
  rw [← List.mem_range, ← hcount, List.mem_map, List.find?_isSome]
  simp only [beq_iff_eq, UInt8.toNat_inj]

end VaultBatch
