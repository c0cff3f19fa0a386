import VaultBatch.Operation.Json
import VaultBatch.Proofs.Operation.Parsing
import VaultBatch.Proofs.Token.Json

/-!
# Instructions from texts and from JSON

An instruction is read from four texts and a number, or from a JSON object of them. Names may be
spelled freely in the first case and not in the second (`TokenKind.ofName?_eq_some_iff_parse`,
`AmountKind.ofName?_eq_some_iff_parse`); this is the only difference between the two
(`Instruction.parse_agrees`).
-/

namespace VaultBatch

open Json

/-! ## Names -/

/-- Names that are read as they stand, and read the same by a parser that takes others as well. -/
theorem name_eq_some_iff_parse {ε α : Type} {ofName? : String → Option α}
    {parse : String → Except ε α} {names : List String}
    (hnames : ∀ name value, ofName? name = some value → name ∈ names)
    (hparse : ∀ name ∈ names, (parse name).toOption = ofName? name) {name : String} {value : α} :
    ofName? name = some value ↔ name ∈ names ∧ parse name = .ok value := by
  constructor
  · intro h
    have hmem := hnames name value h
    rw [← hparse name hmem] at h
    exact ⟨hmem, toOption_eq_some_iff.1 h⟩
  · rintro ⟨hmem, h⟩
    rw [← hparse name hmem]
    exact toOption_eq_some_iff.2 h

/-- A standard is found under its exact name only, where parsing gives the same. -/
theorem TokenKind.ofName?_eq_some_iff_parse {name : String} {kind : TokenKind} :
    ofName? name = some kind ↔ name ∈ ["erc20", "erc721", "erc1155"] ∧ parse name = .ok kind := by
  refine name_eq_some_iff_parse ?_ (by decide)
  intro name kind h
  rw [← ofName?_eq_some_iff.1 h]
  cases kind <;> decide

/-- A policy is found under its exact names only, where parsing gives the same. -/
theorem AmountKind.ofName?_eq_some_iff_parse {name : String} {kind : AmountKind} :
    ofName? name = some kind ↔
      name ∈ ["exactly", "at most", "at_most", "all"] ∧ parse name = .ok kind := by
  refine name_eq_some_iff_parse ?_ (by decide)
  intro name kind h
  unfold ofName? at h
  split at h
  · next halias => simp [halias]
  · rw [← find?_name_eq_some_iff.1 h]
    cases kind <;> decide

/-- The name of a standard is parsed as that standard. -/
theorem TokenKind.parse_name (kind : TokenKind) : parse kind.name = .ok kind := by
  cases kind <;> decide

/-- The name of a policy is parsed as that policy. -/
theorem AmountKind.parse_name (kind : AmountKind) : parse kind.name = .ok kind := by
  cases kind <;> decide

/-- A token is parsed exactly if its standard, its number and its address are. -/
theorem Token.parse_eq_ok_iff {kind address : String} {id : Nat} {token : Token} :
    parse (some kind) id address = .ok token ↔
      TokenKind.parse kind = .ok token.kind ∧ TokenId.ofNat id = .ok token.id ∧
        Address.parse address = .ok token.address := by
  rw [parse_eq_ok_iff_elim, Option.elim_some]

/-! ## Instructions from JSON -/

/-- A policy is read from the spellings of its names, and from nothing else. -/
theorem AmountKind.readJson_decodes (value : Value) :
    readJson.Decodes (Spells · value ·) (value.named? ofName?) :=
  oneOf_decodes _ _ value

/-- An amount is read from the spellings of its texts, and from nothing else. -/
theorem Amount.readJson_decodes (value : Value) :
    readJson.Decodes (Spells · value ·) (value.text?.bind fun text => (parse text).toOption) :=
  checkedString_mapError_decodes parse .encoding value

namespace Instruction

/-- The object of an instruction. -/
def form (address kind : String) (id : Nat) (amountKind amount : String) : Value :=
  .object
    [("token", .object [("kind", .text kind), ("id", .natural id), ("address", .text address)]),
      ("kind", .text amountKind), ("amount", .text amount)]

/-- The members that have been read make an instruction if all of them are there. -/
theorem ofFields_concludes (fields : Fields) :
    (ofFields fields).Concludes (fields.token.bind fun token => fields.kind.bind fun kind =>
      fields.amount.bind fun amount => some ⟨token, kind, amount⟩) :=
  (required_concludes fields.token "token").bind fun _ =>
    (required_concludes fields.kind "kind").bind fun _ =>
    (required_concludes fields.amount "amount").bind fun _ => Reader.concludes_pure _

/-- An instruction is read from the spellings of its token, its policy and its amount. -/
theorem readJson_decodes {token kind amount : Value} {found : Option Token}
    (h : Token.readJson.Decodes (Spells · token ·) found) :
    readJson.Decodes (Spells · (.object [("token", token), ("kind", kind), ("amount", amount)]) ·)
      (found.bind fun token => (kind.named? AmountKind.ofName?).bind fun kind =>
        amount.text?.bind fun text => (Amount.parse text).toOption.bind fun amount =>
          some ⟨token, kind, amount⟩) := by
  have hmembers : Gathers readField {} [("token", token), ("kind", kind), ("amount", amount)]
      (found.bind fun token => (kind.named? AmountKind.ofName?).bind fun kind =>
        (amount.text?.bind fun text => (Amount.parse text).toOption).bind fun amount =>
          some ⟨some token, some kind, some amount⟩) :=
    .member (once_decodes h) fun _ =>
      .member (once_decodes (AmountKind.readJson_decodes kind)) fun _ =>
      .member (once_decodes (Amount.readJson_decodes amount)) fun _ => .done _
  have hread : readJson.Decodes
      (Spells · (.object [("token", token), ("kind", kind), ("amount", amount)]) ·) (.bind _ _) :=
    record_decodes hmembers ofFields_concludes
  simp only [Option.bind_assoc, Option.bind_some] at hread
  exact hread

/-- A document of an instruction is read exactly if the names are exact and the number, the address
and the amount are those of the instruction. -/
theorem parse_readJson_eq_ok_iff {address kind amountKind amount text : String} {id : Nat}
    {instruction : Instruction} (h : Document text (form address kind id amountKind amount)) :
    Json.parse readJson text = .ok instruction ↔
      TokenKind.ofName? kind = some instruction.token.kind ∧
        instruction.token.id.value = id ∧ Address.parse address = .ok instruction.token.address ∧
        AmountKind.ofName? amountKind = some instruction.kind ∧
        Amount.parse amount = .ok instruction.amount := by
  have htoken := Token.readJson_decodes (.text kind) (.natural id) (.text address)
  rw [Json.parse_eq_ok_iff (readJson_decodes htoken) h]
  simp only [Option.bind_eq_some_iff, Value.named?, Value.text?, Option.some.injEq,
    TokenId.ofValue?_natural_eq_some_iff, toOption_eq_some_iff]
  constructor
  · rintro ⟨_, ⟨_, hkind, _, rfl, _, rfl, _, haddress, rfl⟩, _, hpolicy, _, rfl, _, hamount, rfl⟩
    exact ⟨hkind, rfl, haddress, hpolicy, hamount⟩
  · obtain ⟨⟨_, _, _⟩, _, _⟩ := instruction
    rintro ⟨hkind, rfl, haddress, hpolicy, hamount⟩
    exact ⟨_, ⟨_, hkind, _, rfl, _, rfl, _, haddress, rfl⟩, _, hpolicy, _, rfl, _, hamount, rfl⟩

/-- The object of an instruction as it is written without blanks. -/
def writeForm (address kind : String) (id : Nat) (amountKind amount : String) : List Char :=
  Writer.object
    [("token", Writer.object
      [("kind", Writer.text kind), ("id", Writer.integer id), ("address", Writer.text address)]),
      ("kind", Writer.text amountKind), ("amount", Writer.text amount)]

/-- The form of an instruction is written in one of its spellings. -/
theorem writes_form (address kind : String) (id : Nat) (amountKind amount : String) :
    Writes (writeForm address kind id amountKind amount)
      (form address kind id amountKind amount) := by
  have htoken := writes_object (.cons ((writes_text kind).member "kind") <|
    .cons ((writes_natural id).member "id") <|
    .cons ((writes_text address).member "address") .nil)
  exact writes_object (.cons (htoken.member "token") <|
    .cons ((writes_text amountKind).member "kind") <|
    .cons ((writes_text amount).member "amount") .nil)

/-- From JSON just those instructions are read that are read from the same texts and number by
themselves and have their names spelled as they are written, or with an underscore. What an
instruction consists of is read back. -/
theorem parse_agrees :
    (∀ (address kind : String) (id : Nat) (amountKind amount : String),
      Document (String.ofList (writeForm address kind id amountKind amount))
        (form address kind id amountKind amount)) ∧
    (∀ (address kind : String) (id : Nat) (amountKind amount text : String),
      Document text (form address kind id amountKind amount) → ∀ instruction,
        Json.parse readJson text = .ok instruction ↔
          kind ∈ ["erc20", "erc721", "erc1155"] ∧
            amountKind ∈ ["exactly", "at most", "at_most", "all"] ∧
            parse address (some kind) id amountKind amount = .ok instruction) ∧
    ∀ instruction : Instruction,
      parse instruction.token.address.hex (some instruction.token.kind.name)
        instruction.token.id.value instruction.kind.name instruction.amount.display =
          .ok instruction := by
  refine ⟨?_, ?_, ?_⟩
  · intro address kind id amountKind amount
    exact (writes_form address kind id amountKind amount).document
  · intro address kind id amountKind amount text htext instruction
    rw [parse_readJson_eq_ok_iff htext, parse_eq_ok_iff, Token.parse_eq_ok_iff,
      TokenKind.ofName?_eq_some_iff_parse, AmountKind.ofName?_eq_some_iff_parse,
      TokenId.ofNat_eq_ok_iff]
    constructor
    · rintro ⟨⟨hname, hkind⟩, hid, haddress, ⟨hpolicy, hamountKind⟩, hamount⟩
      exact ⟨hname, hpolicy, ⟨hkind, hid, haddress⟩, hamountKind, hamount⟩
    · rintro ⟨hname, hpolicy, ⟨hkind, hid, haddress⟩, hamountKind, hamount⟩
      exact ⟨⟨hname, hkind⟩, hid, haddress, ⟨hpolicy, hamountKind⟩, hamount⟩
  · intro instruction
    rw [parse_eq_ok_iff, Token.parse_eq_ok_iff]
    exact ⟨⟨TokenKind.parse_name _, TokenId.ofNat_value _, Address.parse_hex _⟩,
      AmountKind.parse_name _, Amount.parse_display _⟩

/-- The spelling with an underscore is read from JSON, the one without anything between the words
is not. -/
theorem parse_agrees_atMost :
    Json.parse readJson (String.ofList (writeForm Address.zero.hex "erc721" 7 "at_most" "5")) =
        .ok ⟨⟨.erc721, ⟨7, by decide⟩, .zero⟩, .atMost, ⟨5, by decide, by decide⟩⟩ ∧
      parse Address.zero.hex (some "erc721") 7 "atmost" "5" =
        .ok ⟨⟨.erc721, ⟨7, by decide⟩, .zero⟩, .atMost, ⟨5, by decide, by decide⟩⟩ ∧
      ∀ instruction,
        Json.parse readJson (String.ofList (writeForm Address.zero.hex "erc721" 7 "atmost" "5")) ≠
          .ok instruction := by
  obtain ⟨hdocument, hagrees, -⟩ := parse_agrees
  have hamount : Amount.parse "5" = .ok ⟨5, by decide, by decide⟩ := by decide
  refine ⟨?_, ?_, ?_⟩
  · rw [hagrees _ _ _ _ _ _ (hdocument _ _ _ _ _)]
    refine ⟨by decide, by decide, ?_⟩
    rw [parse_eq_ok_iff, Token.parse_eq_ok_iff]
    exact ⟨⟨by decide, rfl, Address.parse_hex _⟩, by decide, hamount⟩
  · rw [parse_eq_ok_iff, Token.parse_eq_ok_iff]
    exact ⟨⟨by decide, rfl, Address.parse_hex _⟩, by decide, hamount⟩
  · intro instruction
    rw [Ne, hagrees _ _ _ _ _ _ (hdocument _ _ _ _ _)]
    rintro ⟨-, hname, -⟩
    revert hname
    decide

end Instruction

end VaultBatch
