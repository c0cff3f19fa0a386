import Mathlib.Algebra.Group.Int.Defs
import Mathlib.Algebra.Group.Nat.Defs
import VaultBatch.Operation
import VaultBatch.Proofs.Amount.Text
import VaultBatch.Proofs.Token.Parsing

/-!
# Instructions from texts

An instruction is read from the texts and the number that a caller gives for its parts.
`Instruction.Outcome` says what comes of it, from how the parts are spelled alone: the instruction
that they stand for, or the fault of the first of them that stands for nothing, in the order token
standard, token number, address, policy, amount. `Instruction.parse_eq_iff_outcome` says that this
is what reading gives.
-/

namespace VaultBatch

/-! ## Policies -/

namespace AmountKind

variable {kind : AmountKind} {text : String} {error : EncodingError}

/-- The spellings of a policy. -/
def spellings : AmountKind → List String
  | exactly => ["exactly"]
  | atMost => ["at most", "at_most", "atmost"]
  | all => ["all"]

/-- The text is a spelling of the policy in letters of any case, with blanks around it. -/
def GivenBy (kind : AmountKind) (text : String) : Prop :=
  ∃ name ∈ kind.spellings, Text.IsSpelling name text

/-- The spellings are those that are looked up, and the one without anything between the words. -/
theorem mem_spellings_iff {word : String} :
    word ∈ kind.spellings ↔
      (if word = "atmost" then some atMost else ofName? word) = some kind := by
  by_cases hjoined : word = "atmost"
  · subst hjoined
    cases kind <;> decide
  by_cases hunderscore : word = "at_most"
  · subst hunderscore
    cases kind <;> decide
  -- every other spelling is the name that the policy is written with
  rw [if_neg hjoined, ofName?, if_neg hunderscore, find?_name_eq_some_iff]
  cases kind <;> simp [spellings, name, hjoined, hunderscore, eq_comm]

/-- A policy is parsed exactly from a text that it is given by. -/
theorem parse_eq_ok_iff : parse text = .ok kind ↔ kind.GivenBy text := by
  simp only [GivenBy, Text.isSpelling_iff, exists_eq_right, mem_spellings_iff]
  rw [parse, Field.known_eq_ok_iff]

/-- A policy is refused exactly if no policy is given by the text. -/
theorem parse_eq_error_iff :
    parse text = .error error ↔
      (∀ kind : AmountKind, ¬ kind.GivenBy text) ∧ error = .unknownKind .amountKind text := by
  simp only [← parse_eq_ok_iff]
  refine eq_error_iff_of_cause ?_
  intro other h
  exact (Field.known_eq_error_iff.1 h).2

/-- A policy is given exactly by the spellings of one of the five words. -/
theorem exists_givenBy_iff :
    (∃ kind : AmountKind, kind.GivenBy text) ↔
      ∃ name ∈ ["exactly", "at most", "at_most", "atmost", "all"], Text.IsSpelling name text := by
  have hnames : ["exactly", "at most", "at_most", "atmost", "all"] = every.flatMap spellings := rfl
  have hevery : ∀ kind : AmountKind, kind ∈ every := by
    intro kind
    cases kind <;> decide
  rw [hnames]
  constructor
  · intro h
    obtain ⟨kind, name, hname, hspelling⟩ := h
    exact ⟨name, List.mem_flatMap.2 ⟨kind, hevery kind, hname⟩, hspelling⟩
  · intro h
    obtain ⟨name, hname, hspelling⟩ := h
    obtain ⟨kind, -, hname⟩ := List.mem_flatMap.1 hname
    exact ⟨kind, name, hname, hspelling⟩

end AmountKind

/-! ## Amounts -/

namespace Amount

variable {amount : Amount} {text : String} {bare digits : List Char} {negative : Bool}
  {error : EncodingError}

/-- The text is a decimal numeral of the amount, with blanks around it and underscores anywhere. -/
def GivenBy (amount : Amount) (text : String) : Prop :=
  ∃ bare negative digits, Bare text bare ∧ Decimal.WithoutSign bare negative digits ∧
    Decimal.IsNumeral digits ∧ amount.value = Decimal.number negative 0 digits

/-- Why a text is no amount: it starts with the digits of a number that is none, or else there is
something besides digits, or nothing at all. -/
inductive Refused (text : String) : EncodingError → Prop where
  | overflow {bare digits : List Char} {negative : Bool} :
      Bare text bare → Decimal.WithoutSign bare negative digits →
      Decimal.Overruns (-2 ^ 127) (2 ^ 127 - 1) negative 0 digits →
      Refused text (.overflow text)
  | malformed {bare digits : List Char} {negative : Bool} :
      Bare text bare → Decimal.WithoutSign bare negative digits →
      ¬ Decimal.Overruns (-2 ^ 127) (2 ^ 127 - 1) negative 0 digits →
      ¬ Decimal.IsNumeral digits →
      Refused text
        (.malformed .amount text (.integer (if bare = [] then .empty else .invalidDigit)))

/-- Every text has a bare text, and that one digits behind a sign or none. -/
theorem exists_bare_withoutSign (text : String) :
    ∃ bare negative digits, Bare text bare ∧ Decimal.WithoutSign bare negative digits :=
  ⟨_, _, _, bare_iff.2 rfl, Decimal.withoutSign_iff.2 rfl⟩

/-- An amount is parsed exactly if there are only digits behind the sign and it is their number. -/
theorem parse_eq_ok_iff_numeral (h : Bare text bare)
    (hsign : Decimal.WithoutSign bare negative digits) :
    parse text = .ok amount ↔
      Decimal.IsNumeral digits ∧ amount.value = Decimal.number negative 0 digits := by
  rw [parse_eq_ok_iff h, Decimal.read_eq_ok_iff zero_within hsign]
  have hrange : minValue ≤ amount.value ∧ amount.value ≤ maxValue :=
    ⟨amount.le_value, amount.value_le⟩
  rw [and_iff_left hrange]

/-- An amount is parsed exactly from a text that it is given by. -/
theorem parse_eq_ok_iff_givenBy : parse text = .ok amount ↔ amount.GivenBy text := by
  constructor
  · intro h
    obtain ⟨bare, negative, digits, hbare, hsign⟩ := exists_bare_withoutSign text
    obtain ⟨hnumeral, hvalue⟩ := (parse_eq_ok_iff_numeral hbare hsign).1 h
    exact ⟨bare, negative, digits, hbare, hsign, hnumeral, hvalue⟩
  · intro h
    obtain ⟨bare, negative, digits, hbare, hsign, hnumeral, hvalue⟩ := h
    exact (parse_eq_ok_iff_numeral hbare hsign).2 ⟨hnumeral, hvalue⟩

/-- An amount is refused exactly for the listed faults. -/
theorem parse_eq_error_iff_refused : parse text = .error error ↔ Refused text error := by
  constructor
  · intro h
    obtain ⟨bare, negative, digits, hbare, hsign⟩ := exists_bare_withoutSign text
    rw [parse_eq_error_iff hbare hsign, minValue_eq, maxValue_eq] at h
    rcases h with ⟨hoverruns, rfl⟩ | ⟨hoverruns, hnumeral, rfl⟩
    · exact .overflow hbare hsign hoverruns
    · exact .malformed hbare hsign hoverruns hnumeral
  · intro h
    cases h with
    | overflow hbare hsign hoverruns =>
        rw [parse_eq_error_iff hbare hsign, minValue_eq, maxValue_eq]
        exact .inl ⟨hoverruns, rfl⟩
    | malformed hbare hsign hoverruns hnumeral =>
        rw [parse_eq_error_iff hbare hsign, minValue_eq, maxValue_eq]
        exact .inr ⟨hoverruns, hnumeral, rfl⟩

/-- A text is an amount exactly if it is a numeral of a number in range. -/
theorem exists_givenBy_iff :
    (∃ amount : Amount, amount.GivenBy text) ↔
      ∃ bare negative digits, Bare text bare ∧ Decimal.WithoutSign bare negative digits ∧
        Decimal.IsNumeral digits ∧ -2 ^ 127 ≤ Decimal.number negative 0 digits ∧
        Decimal.number negative 0 digits ≤ 2 ^ 127 - 1 := by
  rw [← minValue_eq, ← maxValue_eq]
  constructor
  · intro h
    obtain ⟨amount, bare, negative, digits, hbare, hsign, hnumeral, hvalue⟩ := h
    refine ⟨bare, negative, digits, hbare, hsign, hnumeral, ?_⟩
    rw [← hvalue]
    exact ⟨amount.le_value, amount.value_le⟩
  · intro h
    obtain ⟨bare, negative, digits, hbare, hsign, hnumeral, hlow, hhigh⟩ := h
    exact ⟨⟨_, hlow, hhigh⟩, bare, negative, digits, hbare, hsign, hnumeral, rfl⟩

end Amount

/-! ## Instructions -/

namespace Instruction

variable {address amountKind amount : String} {tokenKind : Option String} {id : Nat}
  {instruction : Instruction} {error : EncodingError}
  {result : Except EncodingError Instruction}

/-- What comes of the parts of an instruction: the fault of the first one that stands for nothing,
or the instruction that consists of what they stand for. -/
inductive Outcome (address : String) (tokenKind : Option String) (id : Nat)
    (amountKind amount : String) : Except EncodingError Instruction → Prop where
  | token {error : EncodingError} :
      Token.Refused tokenKind id address error →
      Outcome address tokenKind id amountKind amount (.error error)
  | amountKind {token : Token} :
      token.GivenBy tokenKind id address → (∀ kind : AmountKind, ¬ kind.GivenBy amountKind) →
      Outcome address tokenKind id amountKind amount
        (.error (.unknownKind .amountKind amountKind))
  | amount {token : Token} {kind : AmountKind} {error : EncodingError} :
      token.GivenBy tokenKind id address → kind.GivenBy amountKind → Amount.Refused amount error →
      Outcome address tokenKind id amountKind amount (.error error)
  | read {instruction : Instruction} :
      instruction.token.GivenBy tokenKind id address → instruction.kind.GivenBy amountKind →
      instruction.amount.GivenBy amount →
      Outcome address tokenKind id amountKind amount (.ok instruction)

/-- An instruction is parsed exactly if its token, its policy and its amount are. -/
theorem parse_eq_ok_iff :
    parse address tokenKind id amountKind amount = .ok instruction ↔
      Token.parse tokenKind id address = .ok instruction.token ∧
        AmountKind.parse amountKind = .ok instruction.kind ∧
        Amount.parse amount = .ok instruction.amount := by
  unfold parse
  simp only [bind_eq_ok_iff]
  constructor
  · intro h
    obtain ⟨_, htoken, _, hkind, _, hamount, h⟩ := h
    cases h
    exact ⟨htoken, hkind, hamount⟩
  · intro h
    obtain ⟨htoken, hkind, hamount⟩ := h
    exact ⟨_, htoken, _, hkind, _, hamount, rfl⟩

/-- An instruction is refused for its token, or else its policy, or else its amount. -/
theorem parse_eq_error_iff :
    parse address tokenKind id amountKind amount = .error error ↔
      Token.parse tokenKind id address = .error error ∨
        ∃ token, Token.parse tokenKind id address = .ok token ∧
          (AmountKind.parse amountKind = .error error ∨
            ∃ kind, AmountKind.parse amountKind = .ok kind ∧
              Amount.parse amount = .error error) := by
  unfold parse
  simp only [bind_eq_error_iff, pure, Except.pure, reduceCtorEq, and_false, exists_false, or_false]

/-- The instructions that are parsed are those of the outcome. -/
theorem parse_eq_ok_iff_outcome :
    parse address tokenKind id amountKind amount = .ok instruction ↔
      Outcome address tokenKind id amountKind amount (.ok instruction) := by
  rw [parse_eq_ok_iff, Token.parse_eq_ok_iff_givenBy, AmountKind.parse_eq_ok_iff,
    Amount.parse_eq_ok_iff_givenBy]
  constructor
  · intro h
    obtain ⟨htoken, hkind, hamount⟩ := h
    exact .read htoken hkind hamount
  · intro h
    cases h with
    | read htoken hkind hamount => exact ⟨htoken, hkind, hamount⟩

/-- The faults that are reported are those of the outcome. -/
theorem parse_eq_error_iff_outcome :
    parse address tokenKind id amountKind amount = .error error ↔
      Outcome address tokenKind id amountKind amount (.error error) := by
  simp only [parse_eq_error_iff, Token.parse_eq_error_iff, Token.parse_eq_ok_iff_givenBy,
    AmountKind.parse_eq_error_iff, AmountKind.parse_eq_ok_iff, Amount.parse_eq_error_iff_refused]
  constructor
  · intro h
    rcases h with htoken | ⟨token, htoken, ⟨hkind, rfl⟩ | ⟨kind, hkind, hamount⟩⟩
    · exact .token htoken
    · exact .amountKind htoken hkind
    · exact .amount htoken hkind hamount
  · intro h
    cases h with
    | token htoken => exact .inl htoken
    | amountKind htoken hkind => exact .inr ⟨_, htoken, .inl ⟨hkind, rfl⟩⟩
    | amount htoken hkind hamount => exact .inr ⟨_, htoken, .inr ⟨_, hkind, hamount⟩⟩

/-- There is an instruction exactly if each of its parts can be had. -/
theorem exists_parse_eq_ok_iff :
    (∃ instruction, parse address tokenKind id amountKind amount = .ok instruction) ↔
      (∃ kind : TokenKind, kind.GivenBy tokenKind) ∧ id < 2 ^ 120 ∧
        (∃ own : Address, own.GivenBy address) ∧
        (∃ kind : AmountKind, kind.GivenBy amountKind) ∧
        ∃ own : Amount, own.GivenBy amount := by
  simp only [parse_eq_ok_iff, Token.parse_eq_ok_iff_givenBy, AmountKind.parse_eq_ok_iff,
    Amount.parse_eq_ok_iff_givenBy]
  constructor
  · intro h
    obtain ⟨instruction, htoken, hkind, hamount⟩ := h
    refine ⟨⟨_, htoken.kind⟩, ?_, ⟨_, htoken.address⟩, ⟨_, hkind⟩, _, hamount⟩
    rw [← htoken.id]
    exact instruction.token.id.value_lt
  · intro h
    obtain ⟨⟨standard, hstandard⟩, hid, ⟨own, hown⟩, ⟨kind, hkind⟩, value, hvalue⟩ := h
    exact ⟨⟨⟨standard, ⟨id, hid⟩, own⟩, kind, value⟩, ⟨hstandard, rfl, hown⟩, hkind, hvalue⟩

/-- What reading gives is what comes of the parts, and there is an instruction exactly if every part
is spelled as it must be: no standard or the name of one, a number that fits, forty digits of an
address, the name of a policy and the numeral of an amount. -/
theorem parse_eq_iff_outcome :
    (∀ (address : String) (tokenKind : Option String) (id : Nat) (amountKind amount : String)
        (result : Except EncodingError Instruction),
      parse address tokenKind id amountKind amount = result ↔
        Outcome address tokenKind id amountKind amount result) ∧
    ∀ (address : String) (tokenKind : Option String) (id : Nat) (amountKind amount : String),
      (∃ instruction, parse address tokenKind id amountKind amount = .ok instruction) ↔
        (∀ text ∈ tokenKind, ∃ name ∈ ["erc20", "erc721", "erc1155"], Text.IsSpelling name text) ∧
        id < 2 ^ 120 ∧
        (∃ digits, Hex.Unmarked ["0x", "0X"] address.toList digits ∧ digits.length = 40 ∧
          ∀ c ∈ digits, Hex.IsDigit c) ∧
        (∃ name ∈ ["exactly", "at most", "at_most", "atmost", "all"],
          Text.IsSpelling name amountKind) ∧
        ∃ bare negative digits, Amount.Bare amount bare ∧
          Decimal.WithoutSign bare negative digits ∧ Decimal.IsNumeral digits ∧
          -2 ^ 127 ≤ Decimal.number negative 0 digits ∧
          Decimal.number negative 0 digits ≤ 2 ^ 127 - 1 := by
  constructor
  · intro address tokenKind id amountKind amount result
    cases result with
    | ok instruction => exact parse_eq_ok_iff_outcome
    | error error => exact parse_eq_error_iff_outcome
  · intro address tokenKind id amountKind amount
    rw [exists_parse_eq_ok_iff, TokenKind.exists_givenBy_iff, Address.exists_givenBy_iff,
      AmountKind.exists_givenBy_iff, Amount.exists_givenBy_iff]

/-- A number that is too large is reported although neither address, policy nor amount can be read,
and behind a standard in capital letters with blanks around it. -/
theorem parse_eq_outOfRange :
    parse "0x1" (some " ERC721\n") (2 ^ 120) "some" "1.5" =
      .error (.outOfRange .tokenId (2 ^ 120) (2 ^ 120 - 1)) := by
  have hkind : TokenKind.erc721.GivenBy (some " ERC721\n") := Text.isSpelling_iff.2 (by decide)
  exact (parse_eq_iff_outcome.1 _ _ _ _ _ _).2 (.token (.id hkind le_rfl))

end Instruction

end VaultBatch
