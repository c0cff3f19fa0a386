import VaultBatch.Proofs.Json.Members
import VaultBatch.Proofs.Token.Order
import VaultBatch.Target.Json

/-!
# Tokens are read from all spellings

What the parts of a token are read from: an address from a string of its digits, a standard from its
name and a number from plain digits, however the texts around them are spelled.
-/

namespace VaultBatch

open Json

/-- An address is read from the spellings of its texts, and from nothing else. -/
theorem Address.readJson_decodes (value : Value) :
    readJson.Decodes (Spells · value ·) (value.text?.bind fun text => (parse text).toOption) :=
  checkedString_mapError_decodes parse .encoding value

/-- A standard is read from the spellings of its name, and from nothing else. -/
theorem TokenKind.readJson_decodes (value : Value) :
    readJson.Decodes (Spells · value ·) (value.named? ofName?) :=
  oneOf_decodes _ _ value

/-- A kind of target is read from the spellings of its name, and from nothing else. -/
theorem TargetKind.readJson_decodes (value : Value) :
    readJson.Decodes (Spells · value ·) (value.named? ofName?) :=
  oneOf_decodes _ _ value

namespace TokenId

/-- The token number that a value stands for. -/
def ofValue? (value : Value) : Option TokenId :=
  (value.natural?.filter (· < 2 ^ 128)).bind fun n => (ofNat n).toOption

/-- A natural number is a token number exactly if that one has its value. -/
theorem ofValue?_natural_eq_some_iff {n : Nat} {id : TokenId} :
    ofValue? (.natural n) = some id ↔ id.value = n := by
  rw [ofValue?, Value.natural?_natural]
  simp only [Option.bind_eq_some_iff, Option.filter_eq_some_iff, Option.some.injEq,
    decide_eq_true_eq, toOption_eq_some_iff, ofNat_eq_ok_iff]
  constructor
  · rintro ⟨_, ⟨rfl, -⟩, hid⟩
    exact hid
  · rintro rfl
    exact ⟨id.value, ⟨rfl, id.value_lt.trans (by decide)⟩, rfl⟩

/-- A token number is read from the spellings of its value, and from nothing else. -/
theorem readJson_decodes (value : Value) :
    readJson.Decodes (Spells · value ·) (ofValue? value) := by
  refine (natural128_decodes value).conclude ?_
  intro n
  cases ofNat n with
  | ok id => exact Reader.concludes_pure id
  | error error => exact Reader.concludes_fail _

end TokenId

namespace Token

/-- The members that have been read make a token if the standard and the address are there. -/
theorem ofFields_concludes (fields : Fields) :
    (ofFields fields).Concludes (fields.kind.bind fun kind => fields.address.bind fun address =>
      some ⟨kind, fields.id.getD .zero, address⟩) :=
  (required_concludes fields.kind "kind").bind fun _ =>
    (required_concludes fields.address "address").bind fun _ => Reader.concludes_pure _

/-- A token is read from its standard, number and address. -/
theorem readJson_decodes (kind id address : Value) :
    readJson.Decodes (Spells · (.object [("kind", kind), ("id", id), ("address", address)]) ·)
      ((kind.named? TokenKind.ofName?).bind fun kind => (TokenId.ofValue? id).bind fun id =>
        address.text?.bind fun text => (Address.parse text).toOption.bind fun address =>
          some ⟨kind, id, address⟩) := by
  have hmembers : Gathers readField {} [("kind", kind), ("id", id), ("address", address)]
      ((kind.named? TokenKind.ofName?).bind fun kind => (TokenId.ofValue? id).bind fun id =>
        (address.text?.bind fun text => (Address.parse text).toOption).bind fun address =>
          some ⟨some kind, some id, some address⟩) :=
    .member (once_decodes (TokenKind.readJson_decodes kind)) fun _ =>
      .member (once_decodes (TokenId.readJson_decodes id)) fun _ =>
      .member (once_decodes (Address.readJson_decodes address)) fun _ => .done _
  have hread : readJson.Decodes
      (Spells · (.object [("kind", kind), ("id", id), ("address", address)]) ·) (.bind _ _) :=
    record_decodes hmembers ofFields_concludes
  simp only [Option.bind_assoc, Option.bind_some] at hread
  exact hread

end Token

end VaultBatch
