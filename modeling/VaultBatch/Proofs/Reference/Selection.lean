import VaultBatch.Proofs.Reference.Members

/-!
# References from a selection of their members

`Selection` has all objects in which each member of a reference stands at most once and has a value
of its kind. `Selection.Accepted` says which of them stand for a reference and `Selection.Refers`
for which one; `parse_members` says that this is what is read from them, and that nothing is read
from other objects.
-/

namespace VaultBatch.Reference

open Json

/-- A text that an address is read from. -/
structure AddressText where
  text : String
  address : Address
  parse_eq : Address.parse text = .ok address

/-- A selection of the members of a reference; all but the address may be nulls. -/
structure Selection where
  type : Option (Option TargetKind)
  kind : Option (Option TokenKind)
  id : Option (Option (Fin (2 ^ 128)))
  address : Option AddressText

namespace Selection

variable (s : Selection)

/-- The selected members, in one order. -/
def parts : List (String × Value) :=
  (s.type.map fun kind => ("type", kind.elim .null fun kind => .text kind.name)).toList ++
    (s.kind.map fun kind => ("kind", kind.elim .null fun kind => .text kind.name)).toList ++
    (s.id.map fun id => ("id", id.elim .null fun n => .natural n)).toList ++
    (s.address.map fun address => ("address", .text address.text)).toList

/-- The selected number; a missing number and a null stand for zero. -/
def number : Nat :=
  (s.id.join.map (·.val)).getD 0

/-- A token number is the selected number, and missing or a null as that one is. -/
def Numbers (id : Option (Option TokenId)) : Prop :=
  id.map (·.map (·.value)) = s.id.map (·.map (·.val))

/-- The selection stands for a reference: its address is there, just one of the two kinds is, and
the number fits and stands beside no kind of target. -/
structure Accepted : Prop where
  address : s.address.isSome
  kind : xor s.type.join.isSome s.kind.join.isSome
  number : ∀ n, s.id.join = some n → n.val < 2 ^ 120
  noNumber : s.id.join.isSome → s.type.join = none

/-- The reference that a selection stands for. -/
inductive Refers : Reference → Prop where
  | target {kind : TargetKind} {address : AddressText} (htype : s.type.join = some kind)
    (hkind : s.kind.join = none) (hid : s.id.join = none) (haddress : s.address = some address) :
    Refers (.target (.ofKind kind address.address))
  | token {kind : TokenKind} {id : TokenId} {address : AddressText} (htype : s.type.join = none)
    (hkind : s.kind.join = some kind) (hid : id.value = s.number)
    (haddress : s.address = some address) : Refers (.token ⟨kind, id, address.address⟩)

end Selection

/-! ## What is read from a selection -/

/-- Members are gathered in two parts, one after the other. -/
theorem gather_append (fields : Fields) (parts others : List (String × Value)) :
    gather fields (parts ++ others) =
      (gather fields parts).bind fun next => gather next others :=
  List.foldlM_append

/-- A member that may be missing. -/
theorem gather_toList {α : Type} (fields : Fields) (selected : Option α)
    (part : α → String × Value) :
    gather fields (selected.map part).toList =
      selected.elim (some fields) fun value => fields.take (part value) := by
  cases selected with
  | none => rfl
  | some value => exact Option.bind_fun_some _

/-- The kind of target is taken if its place is free. -/
theorem take_type {fields : Fields} (h : fields.target = none) (kind : Option TargetKind) :
    fields.take ("type", kind.elim .null fun kind => .text kind.name) =
      some { fields with target := some kind } := by
  cases kind <;> simp [Fields.take, Entry.ofMember?, Value.orNull, Value.named?, Fields.put, h]

/-- The standard is taken if its place is free. -/
theorem take_kind {fields : Fields} (h : fields.kind = none) (kind : Option TokenKind) :
    fields.take ("kind", kind.elim .null fun kind => .text kind.name) =
      some { fields with kind := some kind } := by
  cases kind with
  | none => simp [Fields.take, Entry.ofMember?, Value.orNull, Fields.put, h]
  | some kind =>
      simp [Fields.take, Entry.ofMember?, Value.orNull, Value.named?, Fields.put, h,
        TokenKind.ofName?_eq_some_iff.2 rfl]

/-- The member of a number is a token number with the same value, if there is one. -/
theorem ofMember?_id_eq_some_iff {number : Option (Fin (2 ^ 128))} {entry : Entry} :
    Entry.ofMember? "id" (number.elim .null fun n => .natural n) = some entry ↔
      ∃ id : Option TokenId, id.map (·.value) = number.map (·.val) ∧ entry = .id id := by
  cases number with
  | none =>
      show some (Entry.id none) = some entry ↔ _
      constructor
      · rintro ⟨⟩
        exact ⟨none, rfl, rfl⟩
      · rintro ⟨id, hid, rfl⟩
        rw [Option.map_eq_none_iff.1 hid]
  | some n =>
      show ((TokenId.ofValue? (.natural n)).map some).map Entry.id = some entry ↔ _
      simp only [Option.map_map, Option.map_eq_some_iff, TokenId.ofValue?_natural_eq_some_iff]
      constructor
      · rintro ⟨id, hid, rfl⟩
        exact ⟨some id, congrArg some hid, rfl⟩
      · rintro ⟨id, hid, rfl⟩
        obtain ⟨found, rfl, hfound⟩ := Option.map_eq_some_iff.1 hid
        exact ⟨found, hfound, rfl⟩

/-- The number is taken if its place is free and it fits a token number. -/
theorem take_id_eq_some_iff {fields next : Fields} (h : fields.id = none)
    (number : Option (Fin (2 ^ 128))) :
    fields.take ("id", number.elim .null fun n => .natural n) = some next ↔
      ∃ id : Option TokenId, id.map (·.value) = number.map (·.val) ∧
        next = { fields with id := some id } := by
  have hput : ∀ id, fields.put (.id id) = some { fields with id := some id } := by
    intro id
    rw [Fields.put, h]
    rfl
  simp only [Fields.take, Option.bind_eq_some_iff, ofMember?_id_eq_some_iff]
  constructor
  · rintro ⟨_, ⟨id, hid, rfl⟩, hnext⟩
    exact ⟨id, hid, Option.some.inj (hnext.symm.trans (hput id))⟩
  · rintro ⟨id, hid, rfl⟩
    exact ⟨_, ⟨id, hid, rfl⟩, hput id⟩

/-- The address is taken if its place is free. -/
theorem take_address {fields : Fields} (h : fields.address = none) (address : AddressText) :
    fields.take ("address", .text address.text) =
      some { fields with address := some address.address } := by
  simp [Fields.take, Entry.ofMember?, Value.text?, Fields.put, h, address.parse_eq, Except.toOption]

namespace Selection

variable (s : Selection)

/-- The members of a selection are all taken if the number fits. -/
theorem gather_parts_eq_some_iff {fields : Fields} :
    gather {} s.parts = some fields ↔
      ∃ id, s.Numbers id ∧ fields = ⟨s.type, s.kind, id, s.address.map (·.address)⟩ := by
  obtain ⟨type, kind, number, address⟩ := s
  have htype : (type.elim (some ({} : Fields)) fun value =>
      ({} : Fields).take ("type", value.elim .null fun kind => .text kind.name)) =
      some ⟨type, none, none, none⟩ := by
    cases type with
    | none => rfl
    | some type => exact take_type rfl type
  have hkind : (kind.elim (some ⟨type, none, none, none⟩) fun value =>
      (⟨type, none, none, none⟩ : Fields).take
        ("kind", value.elim .null fun kind => .text kind.name)) =
      some ⟨type, kind, none, none⟩ := by
    cases kind with
    | none => rfl
    | some kind => exact take_kind rfl kind
  have haddress : ∀ id, (address.elim (some ⟨type, kind, id, none⟩) fun value =>
      (⟨type, kind, id, none⟩ : Fields).take ("address", .text value.text)) =
      some ⟨type, kind, id, address.map (·.address)⟩ := by
    intro id
    cases address with
    | none => rfl
    | some address => exact take_address rfl address
  simp only [parts, Numbers, gather_append, gather_toList, htype, hkind, Option.bind_some]
  -- only the number may be refused: it need not fit a token number
  cases number with
  | none =>
      simp only [Option.elim_none, Option.bind_some, haddress, Option.some.injEq, Option.map_none,
        Option.map_eq_none_iff, exists_eq_left]
      exact eq_comm
  | some number =>
      simp only [Option.elim_some, Option.bind_eq_some_iff]
      constructor
      · rintro ⟨next, hnext, hfields⟩
        obtain ⟨id, hid, rfl⟩ := (take_id_eq_some_iff rfl number).1 hnext
        exact ⟨some id, congrArg some hid, Option.some.inj (hfields.symm.trans (haddress _))⟩
      · rintro ⟨id, hid, rfl⟩
        obtain ⟨found, rfl, hfound⟩ := Option.map_eq_some_iff.1 hid
        exact ⟨_, (take_id_eq_some_iff rfl number).2 ⟨found, hfound, rfl⟩, haddress _⟩

end Selection

namespace Selection

variable {s : Selection} {reference : Reference}

/-- A token number that takes the place of the selected one has its value. -/
theorem Numbers.join_map_eq {id : Option (Option TokenId)} (h : s.Numbers id) :
    id.join.map (·.value) = s.id.join.map (·.val) := by
  have hjoin := congrArg Option.join h
  simpa only [Option.join_map_eq_map_join] using hjoin

/-- With zero for a missing one, the token number has the value of the selected one. -/
theorem Numbers.getD_value {id : Option (Option TokenId)} (h : s.Numbers id) :
    (id.join.getD .zero).value = s.number := by
  rw [number, ← h.join_map_eq]
  cases id.join <;> rfl

/-- A token number takes the place of the selected number if it has the same value. -/
theorem numbers_map {id : TokenId} (h : ∀ n, s.id.join = some n → id.value = n.val) :
    s.Numbers (s.id.map fun number => number.map fun _ => id) := by
  obtain ⟨type, kind, number, address⟩ := s
  rcases number with _ | _ | n
  · rfl
  · rfl
  · simp [Numbers, h n rfl]

/-- What is gathered from a selection makes the reference that the selection stands for. -/
theorem gather_parts_refers :
    (∃ fields, gather {} s.parts = some fields ∧ ∃ address, fields.address = some address ∧
      ofFields fields.target.join fields.kind.join fields.id.join address = .ok reference) ↔
        s.Refers reference := by
  simp only [gather_parts_eq_some_iff, ofFields_eq_ok_iff]
  constructor
  · rintro ⟨_, ⟨id, hid, rfl⟩, _, hfound, hmade⟩
    obtain ⟨address, haddress, rfl⟩ := Option.map_eq_some_iff.1 hfound
    have hjoin := hid.join_map_eq
    rcases hmade with ⟨kind, htype, hkind, hnone, rfl⟩ | ⟨kind, htype, hkind, rfl⟩
    · rw [hnone] at hjoin
      exact .target htype hkind (Option.map_eq_none_iff.1 hjoin.symm) haddress
    · exact .token htype hkind hid.getD_value haddress
  · intro h
    cases h with
    | target htype hkind hid haddress =>
        have hnumber : ∀ n, s.id.join = some n → TokenId.zero.value = n.val := by
          rw [hid]
          exact nofun
        refine ⟨_, ⟨_, numbers_map hnumber, rfl⟩, _, ?_, .inl ⟨_, htype, hkind, ?_, rfl⟩⟩
        · rw [haddress]
          rfl
        · rw [Option.join_map_eq_map_join, hid]
          rfl
    | @token kind id address htype hkind hid haddress =>
        have hnumber : ∀ n, s.id.join = some n → id.value = n.val := by
          intro n hn
          rw [hid, number, hn]
          rfl
        have hmap := numbers_map hnumber
        have hvalue := TokenId.value_injective (hmap.getD_value.trans hid.symm)
        refine ⟨_, ⟨_, hmap, rfl⟩, address.address, ?_, .inr ⟨kind, htype, hkind, ?_⟩⟩
        · rw [haddress]
          rfl
        · rw [hvalue]

/-- A selection is accepted exactly if it stands for a reference. -/
theorem accepted_iff : s.Accepted ↔ ∃ reference, s.Refers reference := by
  constructor
  · rintro ⟨haddress, hkinds, hnumber, hnone⟩
    obtain ⟨address, haddress⟩ := Option.isSome_iff_exists.1 haddress
    cases htype : s.type.join with
    | some kind =>
        have hkind : s.kind.join = none := by simpa [htype] using hkinds
        have hid : s.id.join = none := by
          cases hid : s.id.join with
          | none => rfl
          | some n => simp [hid, htype] at hnone
        exact ⟨_, .target htype hkind hid haddress⟩
    | none =>
        obtain ⟨kind, hkind⟩ : ∃ kind, s.kind.join = some kind := by
          simpa [htype, Option.isSome_iff_exists] using hkinds
        -- a missing number stands for zero, which fits
        have hlt : s.number < 2 ^ 120 := by
          rw [number]
          cases hid : s.id.join with
          | none => simp
          | some n => exact hnumber n hid
        have hid : (⟨s.number, hlt⟩ : TokenId).value = s.number := rfl
        exact ⟨_, .token htype hkind hid haddress⟩
  · rintro ⟨_, h⟩
    cases h with
    | target htype hkind hid haddress =>
        exact ⟨by simp [haddress], by simp [htype, hkind], by simp [hid], by simp [hid]⟩
    | @token kind id address htype hkind hid haddress =>
        refine ⟨by simp [haddress], by simp [htype, hkind], ?_, by simp [htype]⟩
        intro n hn
        have hlt := id.value_lt
        rw [hid, number, hn] at hlt
        exact hlt

end Selection

/-- From an object with a selection of the members of a reference, in any order, a reference is read
exactly if the selection is accepted, and it is the one that the selection stands for. The order of
the members matters for no object. An object with another member, or with one that stands twice, is
refused. -/
theorem parse_members :
    (∀ (s : Selection) (parts : List (String × Value)) (text : String), parts.Perm s.parts →
      Document text (.object parts) →
      ((∃ reference, parse readJson text = .ok reference) ↔ s.Accepted) ∧
        ∀ reference, parse readJson text = .ok reference ↔ s.Refers reference) ∧
    (∀ (parts others : List (String × Value)) (text other : String), parts.Perm others →
      Document text (.object parts) → Document other (.object others) →
      (parse readJson text).toOption = (parse readJson other).toOption) ∧
    ∀ (parts : List (String × Value)) (text : String), Document text (.object parts) →
      (∃ part ∈ parts, part.1 ∉ fieldNames) ∨ ¬ (parts.map Prod.fst).Nodup →
      ∃ error, parse readJson text = .error error := by
  refine ⟨?_, ?_, ?_⟩
  · intro s parts text hperm htext
    have hrefers : ∀ reference, parse readJson text = .ok reference ↔ s.Refers reference := by
      intro reference
      rw [parse_readJson_eq_ok_iff htext, gather_perm hperm, Selection.gather_parts_refers]
    refine ⟨?_, hrefers⟩
    rw [Selection.accepted_iff]
    exact exists_congr hrefers
  · intro parts others text other hperm htext hother
    refine Option.ext fun reference => ?_
    rw [toOption_eq_some_iff, toOption_eq_some_iff, parse_readJson_eq_ok_iff htext,
      parse_readJson_eq_ok_iff hother, gather_perm hperm]
  · intro parts text htext hfaulty
    cases hparse : parse readJson text with
    | error error => exact ⟨error, rfl⟩
    | ok reference =>
        obtain ⟨fields, hfields, -⟩ := (parse_readJson_eq_ok_iff htext).1 hparse
        obtain ⟨hknown, hnodup⟩ := names_of_gather hfields
        rcases hfaulty with ⟨part, hpart, hname⟩ | hrepeated
        · exact absurd (hknown part hpart).1 hname
        · exact absurd hnodup hrepeated

/-- A token, with a null for the kind of target. -/
def nullTarget : Selection where
  type := some none
  kind := some (some .erc721)
  id := some (some 7)
  address := some ⟨Address.zero.hex, .zero, Address.parse_hex .zero⟩

/-- Its members as they are written, in reverse order. -/
def nullTargetParts : List (String × List Char) :=
  [("address", Address.zero.writeJson), ("id", Writer.integer 7),
    ("kind", TokenKind.erc721.writeJson), ("type", ['n', 'u', 'l', 'l'])]

/-- A token is read beside a null for its target, from either order of the members, but not with a
second number. -/
theorem parse_members_nullTarget :
    parse readJson (String.ofList (Writer.object nullTargetParts)) =
        .ok (.token ⟨.erc721, ⟨7, by decide⟩, .zero⟩) ∧
      (parse readJson (String.ofList (Writer.object nullTargetParts))).toOption =
        (parse readJson (String.ofList (Writer.object nullTargetParts.reverse))).toOption ∧
      ∃ error, parse readJson
        (String.ofList (Writer.object (("id", Writer.integer 7) :: nullTargetParts))) =
          .error error := by
  have hnull : Writes ['n', 'u', 'l', 'l'] .null := fun rest => .null rfl
  have hparts : List.Forall₂ WritesMember nullTargetParts nullTarget.parts.reverse :=
    .cons ((writes_text _).member "address") <| .cons ((writes_natural 7).member "id") <|
      .cons ((writes_text _).member "kind") <| .cons (hnull.member "type") .nil
  have htext := (writes_object hparts).document
  have hother := (writes_object (List.rel_reverse hparts)).document
  have hrepeated := (writes_object (.cons ((writes_natural 7).member "id") hparts)).document
  have hrefers : nullTarget.Refers (.token ⟨.erc721, ⟨7, by decide⟩, .zero⟩) :=
    @Selection.Refers.token nullTarget .erc721 ⟨7, by decide⟩
      ⟨Address.zero.hex, .zero, Address.parse_hex .zero⟩ rfl rfl rfl rfl
  have hnames : ¬ ["id", "address", "id", "kind", "type"].Nodup := by decide
  obtain ⟨hselection, horder, hfaulty⟩ := parse_members
  refine ⟨?_, ?_, ?_⟩
  · exact ((hselection nullTarget _ _ (List.reverse_perm _) htext).2 _).2 hrefers
  · exact horder _ _ _ _ (List.reverse_perm _).symm htext hother
  · exact hfaulty _ _ hrepeated (.inr hnames)

end VaultBatch.Reference
