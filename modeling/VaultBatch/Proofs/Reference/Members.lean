import VaultBatch.Proofs.Token.Json
import VaultBatch.Reference.Json

/-!
# References are read from their members in any order

A member of a reference is put into a place of its own, so that the order of the members does not
matter (`gather_perm`), and only into a free one, so that none of them stands twice
(`names_of_gather`). `parse_readJson_eq_ok_iff` says which reference is read from the members of an
object, in each of its spellings.
-/

namespace VaultBatch.Reference

open Json

/-! ## One member -/

/-- A member of a reference, with what its value stands for. -/
inductive Entry where
  | target (kind : Option TargetKind)
  | kind (kind : Option TokenKind)
  | id (id : Option TokenId)
  | address (address : Address)

namespace Entry

/-- The name of a member. -/
def name : Entry → String
  | target _ => "type"
  | kind _ => "kind"
  | id _ => "id"
  | address _ => "address"

/-- The member of a name and a value, if there may be one. -/
def ofMember? (name : String) (value : Value) : Option Entry :=
  match name with
  | "type" => (value.orNull (value.named? TargetKind.ofName?)).map target
  | "kind" => (value.orNull (value.named? TokenKind.ofName?)).map kind
  | "id" => (value.orNull (TokenId.ofValue? value)).map id
  | "address" => (value.text?.bind fun text => (Address.parse text).toOption).map address
  | _ => none

/-- The members have the names of the fields. -/
theorem name_mem_fieldNames (entry : Entry) : entry.name ∈ fieldNames := by
  cases entry <;> simp [name, fieldNames]

/-- A member keeps the name that it is read under. -/
theorem name_of_ofMember? {name : String} {value : Value} {entry : Entry}
    (h : ofMember? name value = some entry) : entry.name = name := by
  unfold ofMember? at h
  split at h
  case h_5 => cases h
  all_goals
    obtain ⟨_, -, rfl⟩ := Option.map_eq_some_iff.1 h
    rfl

end Entry

namespace Fields

/-- The place of a name has been filled. -/
def holds (fields : Fields) (name : String) : Bool :=
  match name with
  | "type" => fields.target.isSome
  | "kind" => fields.kind.isSome
  | "id" => fields.id.isSome
  | "address" => fields.address.isSome
  | _ => false

/-- Puts a member into its place, which has to be free. -/
def put (fields : Fields) : Entry → Option Fields
  | .target kind => if fields.target.isSome then none else some { fields with target := some kind }
  | .kind kind => if fields.kind.isSome then none else some { fields with kind := some kind }
  | .id id => if fields.id.isSome then none else some { fields with id := some id }
  | .address address =>
    if fields.address.isSome then none else some { fields with address := some address }

/-- Two members may be put into their places in either order. -/
theorem put_comm (fields : Fields) (entry other : Entry) :
    ((fields.put entry).bind fun next => next.put other) =
      (fields.put other).bind fun next => next.put entry := by
  obtain ⟨target, kind, id, address⟩ := fields
  cases entry <;> cases other <;> simp only [put] <;>
    cases target <;> cases kind <;> cases id <;> cases address <;> rfl

/-- A member fills its place, which has been free, and no place is freed. -/
theorem holds_of_put {fields next : Fields} {entry : Entry} (h : fields.put entry = some next) :
    fields.holds entry.name = false ∧
      ∀ name, next.holds name = false → fields.holds name = false ∧ name ≠ entry.name := by
  cases entry <;>
  · simp only [put, Option.ite_none_left_eq_some, Option.some.injEq] at h
    obtain ⟨hfree, rfl⟩ := h
    refine ⟨Bool.eq_false_iff.2 hfree, ?_⟩
    intro name hname
    refine ⟨?_, ?_⟩
    · unfold holds at hname ⊢
      split at hname <;> simp_all
    · rintro rfl
      cases hname

/-- What a member makes of the fields that have been read, if it is not refused. -/
def take (fields : Fields) (part : String × Value) : Option Fields :=
  (Entry.ofMember? part.1 part.2).bind fields.put

/-- Two members may be taken in either order. -/
theorem take_comm (fields : Fields) (part other : String × Value) :
    ((fields.take part).bind fun next => next.take other) =
      (fields.take other).bind fun next => next.take part := by
  unfold take
  cases Entry.ofMember? part.1 part.2 with
  | none => simp
  | some entry =>
      cases Entry.ofMember? other.1 other.2 with
      | none => simp
      | some otherEntry => exact fields.put_comm entry otherEntry

end Fields

/-- A member is put into its place as its reader puts it there. -/
theorem bind_put {α γ : Type} {slot : Option γ} {found : Option α} {entry : α → Entry}
    {fields : Fields} {put : α → Fields}
    (h : ∀ value, fields.put (entry value) = if slot.isSome then none else some (put value)) :
    ((found.map entry).bind fields.put) = if slot.isSome then none else found.map put := by
  cases found with
  | none => simp
  | some value => exact h value

/-- A member is read from the spellings of its value behind a colon. -/
theorem readField_decodes (fields : Fields) (name : String) (value : Value) :
    (readField fields name).Decodes (SpellsBehindColon · value ·) (fields.take (name, value)) := by
  show (readField fields name).Decodes _ ((Entry.ofMember? name value).bind fields.put)
  unfold readField
  split
  · rw [Entry.ofMember?, bind_put fun _ => rfl]
    exact once_decodes (optional_decodes (TargetKind.readJson_decodes value))
  · rw [Entry.ofMember?, bind_put fun _ => rfl]
    exact once_decodes (optional_decodes (TokenKind.readJson_decodes value))
  · rw [Entry.ofMember?, bind_put fun _ => rfl]
    exact once_decodes (optional_decodes (TokenId.readJson_decodes value))
  · rw [Entry.ofMember?, bind_put fun _ => rfl]
    exact once_decodes (Address.readJson_decodes value)
  · next htype hkind hid haddress =>
    rw [Entry.ofMember?.eq_def]
    split
    · exact absurd rfl htype
    · exact absurd rfl hkind
    · exact absurd rfl hid
    · exact absurd rfl haddress
    · exact Reader.decodes_fail _

/-! ## All members -/

/-- What the members make of the fields, one after the other. -/
def gather (fields : Fields) (parts : List (String × Value)) : Option Fields :=
  parts.foldlM Fields.take fields

/-- Members are gathered by taking the first one and gathering the rest. -/
theorem gather_cons_eq_some_iff {fields final : Fields} {part : String × Value}
    {parts : List (String × Value)} :
    gather fields (part :: parts) = some final ↔
      ∃ next, fields.take part = some next ∧ gather next parts = some final := by
  rw [gather, List.foldlM_cons]
  exact Option.bind_eq_some_iff

/-- The order of the members does not matter. -/
theorem gather_perm {parts others : List (String × Value)} (h : parts.Perm others)
    (fields : Fields) : gather fields parts = gather fields others := by
  have hcomm : ∀ found : Option Fields, ∀ part other : String × Value,
      ((found >>= fun fields => fields.take part) >>= fun fields => fields.take other) =
        (found >>= fun fields => fields.take other) >>= fun fields => fields.take part := by
    intro found part other
    cases found with
    | none => rfl
    | some fields => exact fields.take_comm part other
  rw [gather, gather, List.foldlM_eq_foldl, List.foldlM_eq_foldl]
  exact h.foldl_eq' (fun part _ other _ found => hcomm found part other) (some fields)

/-- If they are read at all, the members are known and each of them stands once. -/
theorem names_of_gather {fields final : Fields} {parts : List (String × Value)}
    (h : gather fields parts = some final) :
    (∀ part ∈ parts, part.1 ∈ fieldNames ∧ fields.holds part.1 = false) ∧
      (parts.map Prod.fst).Nodup := by
  induction parts generalizing fields with
  | nil => simp
  | cons part parts ih =>
      obtain ⟨next, htake, hrest⟩ := gather_cons_eq_some_iff.1 h
      obtain ⟨entry, hentry, hput⟩ := Option.bind_eq_some_iff.1 htake
      obtain ⟨hfree, hholds⟩ := Fields.holds_of_put hput
      obtain ⟨hparts, hnodup⟩ := ih hrest
      rw [Entry.name_of_ofMember? hentry] at hfree hholds
      have hknown := entry.name_mem_fieldNames
      rw [Entry.name_of_ofMember? hentry] at hknown
      refine ⟨List.forall_mem_cons.2 ⟨⟨hknown, hfree⟩, ?_⟩, List.nodup_cons.2 ⟨?_, hnodup⟩⟩
      · intro other hother
        obtain ⟨hmem, hlater⟩ := hparts other hother
        exact ⟨hmem, (hholds _ hlater).1⟩
      · intro hmem
        obtain ⟨other, hother, hname⟩ := List.mem_map.1 hmem
        exact (hholds _ (hparts other hother).2).2 hname

/-! ## The reference of all members -/

/-- A reference is made of a kind of target alone, or of a standard with a number that is zero if
missing. -/
theorem ofFields_eq_ok_iff {target : Option TargetKind} {kind : Option TokenKind}
    {id : Option TokenId} {address : Address} {reference : Reference} :
    ofFields target kind id address = .ok reference ↔
      (∃ found, target = some found ∧ kind = none ∧ id = none ∧
        reference = .target (.ofKind found address)) ∨
      ∃ found, target = none ∧ kind = some found ∧
        reference = .token ⟨found, id.getD .zero, address⟩ := by
  cases target <;> cases kind <;> cases id <;> simp [ofFields, eq_comm]

/-- The members that have been read are passed on if the address is there. -/
theorem ofMembers_concludes (fields : Fields) :
    (ofMembers fields).Concludes (fields.address.bind fun address =>
      some ⟨fields.target.join, fields.kind.join, fields.id.join, address⟩) :=
  (required_concludes fields.address "address").bind fun _ => Reader.concludes_pure _

/-- A reference is read from the spellings of an object exactly as its members are gathered. -/
theorem readJson_decodes (parts : List (String × Value)) :
    readJson.Decodes (Spells · (.object parts) ·)
      ((gather {} parts).bind fun fields => fields.address.bind fun address =>
        (ofFields fields.target.join fields.kind.join fields.id.join address).toOption) := by
  have hmembers : Gathers readField {} parts (gather {} parts) :=
    gathers_foldlM (fun fields part _ => readField_decodes fields part.1 part.2) {}
  have hread : readJson.Decodes (Spells · (.object parts) ·)
      (((gather {} parts).bind fun fields => fields.address.bind fun address =>
        some (⟨fields.target.join, fields.kind.join, fields.id.join, address⟩ : Values)).bind
        fun values => (ofFields values.target values.kind values.id values.address).toOption) := by
    refine (record_decodes hmembers ofMembers_concludes).conclude ?_
    intro values
    cases ofFields values.target values.kind values.id values.address with
    | ok reference => exact Reader.concludes_pure reference
    | error error => exact Reader.concludes_fail _
  simpa only [Option.bind_assoc, Option.bind_some] using hread

/-- A document of an object is read as a reference exactly if that is made of what its members
gather. -/
theorem parse_readJson_eq_ok_iff {parts : List (String × Value)} {text : String}
    {reference : Reference} (h : Document text (.object parts)) :
    parse readJson text = .ok reference ↔
      ∃ fields, gather {} parts = some fields ∧ ∃ address, fields.address = some address ∧
        ofFields fields.target.join fields.kind.join fields.id.join address = .ok reference := by
  rw [parse_eq_ok_iff (readJson_decodes parts) h]
  simp only [Option.bind_eq_some_iff, toOption_eq_some_iff]

end VaultBatch.Reference
