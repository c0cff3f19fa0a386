import VaultBatch.Proofs.Compile.Meaning

/-!
# Compilation and order

An order of a list is told by the places where its values stand, each place once. An arrangement
is an order of operations together with an order of the instructions of each one. Since the table
and the ranks in it depend on the distinct tokens alone, arranging operations and then compiling
them comes to the same as compiling them and then arranging what has been packed
(`Batch.compile_arranged`).
-/

namespace VaultBatch

variable {α β : Type}

/-- The values of a list in another order: at each place the value that stands at the place the
order tells. -/
def inOrder (order : List Nat) (values : List α) : List α :=
  order.filterMap (values[·]?)

/-- Values are mapped in any order alike. -/
theorem inOrder_map (f : α → β) (order : List Nat) (values : List α) :
    inOrder order (values.map f) = (inOrder order values).map f := by
  simp only [inOrder, List.map_filterMap, List.getElem?_map]

/-- In the order of their places, values stay where they are. -/
theorem inOrder_range (values : List α) : inOrder (List.range values.length) values = values := by
  induction values with
  | nil => rfl
  | cons value values ih =>
      have hrest : ((List.range values.length).map (· + 1)).filterMap ((value :: values)[·]?) =
          inOrder (List.range values.length) values := by
        rw [List.filterMap_map]
        rfl
      rw [List.length_cons, List.range_succ_eq_map, inOrder]
      exact congrArg (value :: ·) (hrest.trans ih)

/-- An order that takes every place once loses no value and repeats none. -/
theorem inOrder_perm {order : List Nat} {values : List α}
    (h : order.Perm (List.range values.length)) : (inOrder order values).Perm values := by
  have hperm : (inOrder order values).Perm (inOrder (List.range values.length) values) :=
    h.filterMap _
  rwa [inOrder_range] at hperm

/-- An operation with its instructions in another order. -/
def Operation.inOrder (order : List Nat) (operation : Operation) : Operation :=
  { operation with instructions := VaultBatch.inOrder order operation.instructions }

/-- A compiled operation with its instructions in another order. -/
def CompiledOperation.inOrder (order : List Nat) (operation : CompiledOperation) :
    CompiledOperation :=
  { operation with instructions := VaultBatch.inOrder order operation.instructions }

/-- Packing an operation keeps the order of its instructions. -/
theorem Operation.packed_inOrder (tokens : List Token) (order : List Nat)
    (operation : Operation) :
    (operation.inOrder order).packed tokens = (operation.packed tokens).inOrder order := by
  have hinstructions := inOrder_map
    (fun instruction => PackedInstruction.pack (instruction.indexed tokens)) order
    operation.instructions
  simp only [packed, Operation.inOrder, CompiledOperation.inOrder, hinstructions]

/-- Operations whose instructions are the same up to order name the same tokens. -/
theorem Operation.allTokens_perm {arranged operations : List Operation}
    (h : List.Forall₂ (fun arranged operation =>
      arranged.instructions.Perm operation.instructions) arranged operations) :
    (allTokens arranged).Perm (allTokens operations) := by
  induction h with
  | nil => exact .refl _
  | cons hperm _ ih => exact (hperm.map _).append ih

/-- An order of operations and, for each of them in this order, an order of its instructions. -/
structure Arrangement where
  places : List Nat
  orders : List (List Nat)

namespace Arrangement

/-- The orders of an arrangement take every operation and every instruction once. -/
structure Fits (plan : Arrangement) (operations : List Operation) : Prop where
  places : plan.places.Perm (List.range operations.length)
  orders : List.Forall₂
    (fun order operation => order.Perm (List.range operation.instructions.length))
    plan.orders (inOrder plan.places operations)

/-- Operations, compiled or not, in the order of an arrangement, each with its instructions in
order. -/
def apply (reorder : List Nat → α → α) (plan : Arrangement) (operations : List α) : List α :=
  List.zipWith reorder plan.orders (inOrder plan.places operations)

/-- Packing operations keeps their arrangement. -/
theorem apply_packed (plan : Arrangement) (tokens : List Token) (operations : List Operation) :
    (plan.apply Operation.inOrder operations).map (Operation.packed tokens) =
      plan.apply CompiledOperation.inOrder (operations.map (Operation.packed tokens)) := by
  simp only [apply, inOrder_map, List.map_zipWith, List.zipWith_map_right,
    Operation.packed_inOrder]

variable {plan : Arrangement} {operations : List Operation}

/-- Each arranged operation has the instructions of one operation in some order. -/
theorem Fits.forall₂ (h : plan.Fits operations) :
    List.Forall₂ (fun arranged operation => arranged.instructions.Perm operation.instructions)
      (plan.apply Operation.inOrder operations) (inOrder plan.places operations) := by
  -- by induction on the orders, each beside the operation that it is for
  have horders := h.orders
  unfold apply
  generalize plan.orders = orders, inOrder plan.places operations = moved at horders
  induction horders with
  | nil => exact .nil
  | cons horder _ ih => exact .cons (inOrder_perm horder) ih

/-- An arrangement that fits keeps the number of operations. -/
theorem Fits.length_eq (h : plan.Fits operations) :
    (plan.apply Operation.inOrder operations).length = operations.length := by
  rw [h.forall₂.length_eq]
  exact (inOrder_perm h.places).length_eq

/-- Arranging operations keeps the number of instructions of each one. -/
theorem Fits.lengths_perm (h : plan.Fits operations) :
    ((plan.apply Operation.inOrder operations).map (·.instructions.length)).Perm
      (operations.map (·.instructions.length)) := by
  have heq : (plan.apply Operation.inOrder operations).map (·.instructions.length) =
      (inOrder plan.places operations).map (·.instructions.length) := by
    rw [← List.forall₂_eq_eq_eq, List.forall₂_map_left_iff, List.forall₂_map_right_iff]
    exact h.forall₂.imp fun _ _ hperm => hperm.length_eq
  rw [heq]
  exact (inOrder_perm h.places).map _

/-- Arranging operations keeps their tokens. -/
theorem Fits.allTokens_perm (h : plan.Fits operations) :
    (Operation.allTokens (plan.apply Operation.inOrder operations)).Perm
      (Operation.allTokens operations) :=
  (Operation.allTokens_perm h.forall₂).trans ((inOrder_perm h.places).flatMap_right _)

end Arrangement

/-- Operations with the same numbers of instructions, in any order, are allowed alike. -/
theorem Limits.AllowsInstructions.of_lengths_perm {limits : Limits} {given arranged : List Operation}
    (h : limits.AllowsInstructions given)
    (hperm : (arranged.map (·.instructions.length)).Perm (given.map (·.instructions.length))) :
    limits.AllowsInstructions arranged := by
  intro limit hlimit operation hoperation
  have hmem : operation.instructions.length ∈ given.map (·.instructions.length) :=
    hperm.subset (List.mem_map_of_mem hoperation)
  obtain ⟨other, hother, hlength⟩ := List.mem_map.1 hmem
  rw [← hlength]
  exact h limit hlimit other hother

namespace Batch

/-- Operations that have been arranged compile to the batch with its operations arranged. -/
theorem ofOperations_apply {plan : Arrangement} {operations : List Operation}
    (h : plan.Fits operations) :
    ofOperations (plan.apply Operation.inOrder operations) =
      { ofOperations operations with
        operations := plan.apply CompiledOperation.inOrder (ofOperations operations).operations } := by
  have hmem : ∀ token,
      token ∈ Operation.allTokens (plan.apply Operation.inOrder operations) ↔
        token ∈ Operation.allTokens operations :=
    fun _ => h.allTokens_perm.mem_iff
  have hpacked : (plan.apply Operation.inOrder operations).map
      (Operation.packed (Operation.allTokens (plan.apply Operation.inOrder operations))) =
      plan.apply CompiledOperation.inOrder
        (operations.map (Operation.packed (Operation.allTokens operations))) := by
    rw [← Arrangement.apply_packed, Operation.packed_congr hmem]
  simp only [ofOperations, TokenTable.ofTokens_congr hmem, hpacked]

/-- Operations and instructions may be put in any order before compilation or after it. -/
theorem compile_arranged {limits : Limits} {operations : List Operation} {batch : Batch}
    (h : compile limits operations = .ok batch) {plan : Arrangement} (hplan : plan.Fits operations) :
    compile limits (plan.apply Operation.inOrder operations) =
      .ok { batch with
        operations := plan.apply CompiledOperation.inOrder batch.operations } := by
  obtain ⟨rfl, hoperations, hinstructions, htokens, hsize⟩ := compile_eq_ok_iff.1 h
  rw [← List.toFinset_eq_of_perm _ _ hplan.allTokens_perm] at htokens hsize
  refine compile_eq_ok_iff.2 ⟨(ofOperations_apply hplan).symm, ?_, ?_, htokens, hsize⟩
  · intro limit hlimit
    rw [hplan.length_eq]
    exact hoperations limit hlimit
  · exact hinstructions.of_lengths_perm hplan.lengths_perm

/-- The two operations of `sharedToken` swapped, and the two instructions of the one that is last
then. -/
def swapped : Arrangement := ⟨[1, 0], [[0], [1, 0]]⟩

/-- The swapped operations are compiled to the same table, with the packed ones swapped. -/
theorem compile_arranged_swapped :
    compile ⟨2, some 2, none⟩ sharedToken = .ok (ofOperations sharedToken) ∧
      swapped.Fits sharedToken ∧
      compile ⟨2, some 2, none⟩ (swapped.apply Operation.inOrder sharedToken) =
        .ok { ofOperations sharedToken with
          operations :=
            swapped.apply CompiledOperation.inOrder (ofOperations sharedToken).operations } := by
  have hcompile : compile ⟨2, some 2, none⟩ sharedToken = .ok (ofOperations sharedToken) := rfl
  have hfits : swapped.Fits sharedToken :=
    ⟨by decide, .cons (by decide) (.cons (by decide) .nil)⟩
  exact ⟨hcompile, hfits, compile_arranged hcompile hfits⟩

end Batch
end VaultBatch
