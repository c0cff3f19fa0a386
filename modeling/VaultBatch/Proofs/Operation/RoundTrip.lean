import VaultBatch.Compile
import VaultBatch.Operation.Json
import VaultBatch.Proofs.Amount.Text
import VaultBatch.Proofs.Json.Containers

/-!
# Operations are read back from JSON

Every part of an operation is read from what it is written as: names, addresses, token numbers with
all their digits, amounts from one end of their range to the other. A reference is written in one of
two ways and read from the members of both, and `Reference.readJson_answers` says that it stays what
it is. `Operation.parse_writeListJson` is the same for a list of operations, and so for what is
compiled from it.
-/

namespace VaultBatch

open Json Json.Reader

/-! ## Single values -/

/-- A written address is read back. -/
theorem Address.readJson_answers (address : Address) :
    readJson.Answers address.writeJson (.ok address) := by
  refine checkedString_answers ?_
  rw [parse_hex]
  rfl

/-- A written standard is read back. -/
theorem TokenKind.readJson_answers (kind : TokenKind) :
    readJson.Answers kind.writeJson (.ok kind) :=
  oneOf_answers (ofName?_eq_some_iff.2 rfl)

/-- A written kind of target is read back. -/
theorem TargetKind.readJson_answers (kind : TargetKind) :
    readJson.Answers (Writer.text kind.name) (.ok kind) :=
  oneOf_answers (ofName?_name kind)

/-- A written policy is read back. -/
theorem AmountKind.readJson_answers (kind : AmountKind) :
    readJson.Answers kind.writeJson (.ok kind) :=
  oneOf_answers (ofName?_name kind)

/-- Token numbers are wider than plain integers and keep every digit. -/
theorem TokenId.readJson_answers (id : TokenId) : readJson.Answers id.writeJson (.ok id) := by
  have hwide : id.value < 0x100000000000000000000000000000000 :=
    Nat.lt_trans id.value_lt (by decide)
  refine (natural128_answers hwide).settle ?_
  rw [ofNat_value]
  exact settles_pure id

/-- A written amount is read back. -/
theorem Amount.readJson_answers (amount : Amount) :
    readJson.Answers amount.writeJson (.ok amount) := by
  refine checkedString_answers ?_
  rw [parse_display]
  rfl

/-! ## Tokens and references -/

/-- The written members of a token are collected. -/
theorem Token.collects (token : Token) :
    Collects readField {}
      [("kind", token.kind.writeJson), ("id", token.id.writeJson),
        ("address", token.address.writeJson)]
      (.ok ⟨some token.kind, some token.id, some token.address⟩) :=
  .member (once_answers token.kind.readJson_answers) <|
    .member (once_answers token.id.readJson_answers) <|
    .member (once_answers token.address.readJson_answers) <| .done _

/-- A written token is read back. -/
theorem Token.readJson_answers (token : Token) : readJson.Answers token.writeJson (.ok token) :=
  record_answers token.collects (settles_pure token)

namespace Reference

/-- A token is read from the members `kind`, `id` and `address`. -/
theorem collects_token (token : Token) :
    Collects readField {}
      [("kind", token.kind.writeJson), ("id", token.id.writeJson),
        ("address", token.address.writeJson)]
      (.ok ⟨none, some (some token.kind), some (some token.id), some token.address⟩) := by
  have hkind := optional_answers token.kind.readJson_answers (head?_text_ne _)
  have hid := optional_answers token.id.readJson_answers (head?_integer_ne _)
  exact .member (once_answers hkind) <| .member (once_answers hid) <|
    .member (once_answers token.address.readJson_answers) <| .done _

/-- A pool or gauge is read from the members `type` and `address`. -/
theorem collects_target (target : Target) :
    Collects readField {}
      [("type", Writer.text target.kind.name), ("address", target.address.writeJson)]
      (.ok ⟨some (some target.kind), none, none, some target.address⟩) := by
  have htype := optional_answers target.kind.readJson_answers (head?_text_ne _)
  exact .member (once_answers htype) <|
    .member (once_answers target.address.readJson_answers) <| .done _

/-- A token is never read back as a pool or gauge, nor a pool or gauge as a token. -/
theorem readJson_answers (reference : Reference) :
    readJson.Answers reference.writeJson (.ok reference) := by
  cases reference with
  | token token =>
      have hvalues : (record (.record "ReferenceFields") readField {} ofMembers readPlaces).Answers
          token.writeJson (.ok ⟨none, some token.kind, some token.id, token.address⟩) :=
        record_answers (collects_token token) (settles_pure _)
      exact hvalues.settle (settles_pure (Reference.token token))
  | target target =>
      have hvalues : (record (.record "ReferenceFields") readField {} ofMembers readPlaces).Answers
          target.writeJson (.ok ⟨some target.kind, none, none, target.address⟩) :=
        record_answers (collects_target target) (settles_pure _)
      refine hvalues.settle ?_
      cases target <;> exact settles_pure _

end Reference

/-! ## Instructions and operations -/

/-- A written instruction is read back. -/
theorem Instruction.readJson_answers (instruction : Instruction) :
    readJson.Answers instruction.writeJson (.ok instruction) := by
  have hmembers : Collects readField {}
      [("token", instruction.token.writeJson), ("kind", instruction.kind.writeJson),
        ("amount", instruction.amount.writeJson)]
      (.ok ⟨some instruction.token, some instruction.kind, some instruction.amount⟩) :=
    .member (once_answers instruction.token.readJson_answers) <|
      .member (once_answers instruction.kind.readJson_answers) <|
      .member (once_answers instruction.amount.readJson_answers) <| .done _
  exact record_answers hmembers (settles_pure instruction)

namespace Operation

/-- A written operation is read back. -/
theorem readJson_answers (operation : Operation) :
    readJson.Answers operation.writeJson (.ok operation) := by
  have hinstructions := list_answers Instruction.readJson_answers operation.instructions
  have hmembers : Collects readField {}
      [("reference", operation.reference.writeJson),
        ("instructions", Writer.sequence (operation.instructions.map (·.writeJson)))]
      (.ok ⟨some operation.reference, some operation.instructions⟩) :=
    .member (once_answers operation.reference.readJson_answers) <|
      .member (once_answers hinstructions) <| .done _
  exact record_answers hmembers (settles_pure operation)

/-- A written list of operations is read back. -/
theorem readListJson_answers (operations : List Operation) :
    readListJson.Answers (writeListJson operations) (.ok operations) :=
  list_answers readJson_answers operations

/-- A list of operations is read back from what it is written as, whatever their references and
instructions are, and the same is compiled from it under any limits. -/
theorem parse_writeListJson (operations : List Operation) :
    parse readListJson (String.ofList (writeListJson operations)) = .ok operations ∧
      ∀ limits, (parse readListJson (String.ofList (writeListJson operations))).toOption.map
        (Batch.compile limits) = some (Batch.compile limits operations) := by
  have hread := parse_of_answers (readListJson_answers operations)
  refine ⟨hread, ?_⟩
  intro limits
  rw [hread]
  rfl

end Operation
end VaultBatch
