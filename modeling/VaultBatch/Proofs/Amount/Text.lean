import Mathlib.Algebra.Group.Int.Defs
import Mathlib.Algebra.Group.Nat.Defs
import VaultBatch.Proofs.Text.Blank
import VaultBatch.Proofs.Text.Numeral

/-!
# Amounts as texts

A text is taken apart into the blanks at its ends, underscores, a sign and what should be digits.
`Amount.parse_grammar` says which amount it is read as, and why else it is refused. An amount is
read back from its digits (`Amount.parse_display`), and neither blanks around them nor underscores
among them make a difference.
-/

namespace VaultBatch.Amount

variable {text : String} {bare digits : List Char} {negative : Bool} {amount : Amount}
  {error : EncodingError}

/-- What is left of a text without the blanks at its ends and the underscores between them. -/
def Bare (text : String) (bare : List Char) : Prop :=
  ∃ inner, Text.Trimmed text.toList inner ∧ bare = inner.filter (· != '_')

/-- The bare text is what trimming leaves, without its underscores. -/
theorem bare_iff : Bare text bare ↔ bare = (Text.trim text.toList).filter (· != '_') := by
  simp only [Bare, Text.trimmed_iff, exists_eq_left']

/-- An amount is read exactly if its value is what the bare text is read as. -/
theorem parse_eq_ok_iff (h : Bare text bare) :
    parse text = .ok amount ↔ Decimal.read minValue maxValue bare = .ok amount.value := by
  rw [parse, ← bare_iff.1 h]
  cases Decimal.read minValue maxValue bare with
  | error flaw => cases flaw <;> simp
  | ok value =>
      rw [Except.ok.injEq, eq_comm (a := value), ← ofInt?_eq_some_iff]
      cases hvalue : ofInt? value <;> simp [hvalue]

/-- A flaw of the bare text is reported as an overflow or as malformed, with the whole text. -/
theorem parse_of_read {flaw : Decimal.Flaw} (h : Bare text bare)
    (hread : Decimal.read minValue maxValue bare = .error flaw) :
    parse text = .error (if flaw = .outOfBounds then .overflow text
      else .malformed .amount text (.integer flaw)) := by
  rw [parse, ← bare_iff.1 h, hread]
  cases flaw <;> rfl

/-- Zero is within the bounds. -/
theorem zero_within : minValue ≤ 0 ∧ 0 ≤ maxValue := by
  decide

/-- A text is refused for digits that lead out of the amounts, or else for what is no numeral. -/
theorem parse_eq_error_iff (h : Bare text bare)
    (hsign : Decimal.WithoutSign bare negative digits) :
    parse text = .error error ↔
      Decimal.Overruns minValue maxValue negative 0 digits ∧ error = .overflow text ∨
        ¬ Decimal.Overruns minValue maxValue negative 0 digits ∧ ¬ Decimal.IsNumeral digits ∧
          error = .malformed .amount text
            (.integer (if bare = [] then .empty else .invalidDigit)) := by
  cases hread : Decimal.read minValue maxValue bare with
  | ok value =>
      obtain ⟨hnumeral, hvalue, hrange⟩ := (Decimal.read_eq_ok_iff zero_within hsign).1 hread
      have hok : parse text = .ok ⟨value, hrange.1, hrange.2⟩ := (parse_eq_ok_iff h).2 hread
      have hoverruns := Decimal.not_overruns zero_within (hvalue ▸ hrange)
      simp [hok, hnumeral, hoverruns]
  | error flaw =>
      rw [parse_of_read h hread, Except.error.injEq, eq_comm]
      rcases (Decimal.read_eq_error_iff zero_within hsign).1 hread with
        ⟨hoverruns, rfl⟩ | ⟨hoverruns, hnumeral, hflaw⟩
      · simp [hoverruns]
      · have hrange : flaw ≠ .outOfBounds := by
          rw [hflaw]
          split <;> simp
        rw [if_neg hrange, hflaw]
        simp [hoverruns, hnumeral]

/-- The digits of an amount are neither blank nor underscores. -/
theorem display_clean (amount : Amount) {c : Char} (h : c ∈ Decimal.ofInt amount.value) :
    Text.isBlank c = false ∧ c ≠ '_' := by
  rcases Decimal.mem_ofInt h with rfl | hdigit
  · decide
  · refine ⟨Digit.isBlank_eq_false hdigit, ?_⟩
    rintro rfl
    cases hdigit

/-- Blanks around the digits of an amount and underscores among them are left out. -/
theorem bare_display {before inner after : List Char}
    (hblank : ∀ c ∈ before ++ after, Text.isBlank c = true)
    (hinner : inner.filter (· != '_') = Decimal.ofInt amount.value) :
    Bare (String.ofList (before ++ inner ++ after)) (Decimal.ofInt amount.value) := by
  have hclean : ∀ c ∈ inner, Text.isBlank c = false := by
    intro c hc
    by_cases hunderscore : c = '_'
    · rw [hunderscore]
      decide
    · refine (display_clean amount ?_).1
      rw [← hinner]
      exact List.mem_filter.2 ⟨hc, bne_iff_ne.2 hunderscore⟩
  refine ⟨inner, ⟨before, after, String.toList_ofList, hblank, ?_, ?_⟩, hinner.symm⟩
  · exact fun c hc => hclean c (List.mem_of_mem_head? hc)
  · exact fun c hc => hclean c (List.mem_of_mem_getLast? hc)

/-- The digits of an amount are read as this amount, whatever blanks stand around them and
underscores among them. -/
theorem parse_ofInt {before inner after : List Char}
    (hblank : ∀ c ∈ before ++ after, Text.isBlank c = true)
    (hinner : inner.filter (· != '_') = Decimal.ofInt amount.value) :
    parse (String.ofList (before ++ inner ++ after)) = .ok amount :=
  (parse_eq_ok_iff (bare_display hblank hinner)).2
    (Decimal.read_ofInt zero_within ⟨amount.le_value, amount.value_le⟩)

/-- Every amount is read back from its digits. -/
theorem parse_display (amount : Amount) : parse amount.display = .ok amount := by
  have hinner : (Decimal.ofInt amount.value).filter (· != '_') = Decimal.ofInt amount.value :=
    List.filter_eq_self.2 fun c hc => bne_iff_ne.2 (display_clean amount hc).2
  have h : parse (String.ofList ([] ++ Decimal.ofInt amount.value ++ [])) = .ok amount :=
    parse_ofInt (by simp) hinner
  rwa [List.nil_append, List.append_nil] at h

/-- The least amount as a power of two. -/
theorem minValue_eq : minValue = -2 ^ 127 := by
  decide

/-- The largest amount as a power of two. -/
theorem maxValue_eq : maxValue = 2 ^ 127 - 1 := by
  decide

/-- Every text can be taken apart into blanks, underscores, a sign and digits. It is read exactly if
nothing but digits, and at least one, stands behind the sign and their number is an amount, which is
then the one read. It overflows exactly if the digits up to some place already stand for a number
that is no amount, whatever follows them, and every other text is malformed. An amount is read from
its digits, with blanks around them and underscores anywhere among them. -/
theorem parse_grammar :
    (∀ text, ∃ bare negative digits, Bare text bare ∧ Decimal.WithoutSign bare negative digits) ∧
    (∀ text bare negative digits, Bare text bare → Decimal.WithoutSign bare negative digits →
      (∀ amount, parse text = .ok amount ↔
        Decimal.IsNumeral digits ∧ amount.value = Decimal.number negative 0 digits) ∧
      ((∃ amount, parse text = .ok amount) ↔
        Decimal.IsNumeral digits ∧ -2 ^ 127 ≤ Decimal.number negative 0 digits ∧
          Decimal.number negative 0 digits ≤ 2 ^ 127 - 1) ∧
      ∀ error, parse text = .error error ↔
        Decimal.Overruns (-2 ^ 127) (2 ^ 127 - 1) negative 0 digits ∧ error = .overflow text ∨
          ¬ Decimal.Overruns (-2 ^ 127) (2 ^ 127 - 1) negative 0 digits ∧
            ¬ Decimal.IsNumeral digits ∧
            error = .malformed .amount text
              (.integer (if bare = [] then .empty else .invalidDigit))) ∧
    ∀ (amount : Amount) (before inner after : List Char),
      (∀ c ∈ before ++ after, Text.isBlank c = true) →
      inner.filter (· != '_') = amount.display.toList →
      parse (String.ofList (before ++ inner ++ after)) = .ok amount := by
  refine ⟨fun text => ?_, fun text bare negative digits h hsign => ?_,
    fun amount before inner after hblank hinner => ?_⟩
  · exact ⟨_, _, _, bare_iff.2 rfl, Decimal.withoutSign_iff.2 rfl⟩
  · rw [← minValue_eq, ← maxValue_eq]
    have hok : ∀ amount, parse text = .ok amount ↔
        Decimal.IsNumeral digits ∧ amount.value = Decimal.number negative 0 digits := by
      intro amount
      rw [parse_eq_ok_iff h, Decimal.read_eq_ok_iff zero_within hsign]
      exact ⟨fun hread => ⟨hread.1, hread.2.1⟩,
        fun hread => ⟨hread.1, hread.2, amount.le_value, amount.value_le⟩⟩
    refine ⟨hok, ?_, fun error => parse_eq_error_iff h hsign⟩
    constructor
    · rintro ⟨amount, hread⟩
      obtain ⟨hnumeral, hvalue⟩ := (hok amount).1 hread
      exact ⟨hnumeral, hvalue ▸ amount.le_value, hvalue ▸ amount.value_le⟩
    · rintro ⟨hnumeral, hlow, hhigh⟩
      exact ⟨⟨_, hlow, hhigh⟩, (hok _).2 ⟨hnumeral, rfl⟩⟩
  · rw [display, String.toList_ofList] at hinner
    exact parse_ofInt hblank hinner

/-- One more than the largest amount overflows, although a letter stands behind it, and the smallest
amount is read with a line break in front and an underscore before its sign. -/
theorem parse_at_the_bounds :
    parse (String.ofList ('+' :: Decimal.ofNat (2 ^ 127) ++ ['x'])) =
        .error (.overflow (String.ofList ('+' :: Decimal.ofNat (2 ^ 127) ++ ['x']))) ∧
      parse (String.ofList (['\n'] ++ '_' :: Decimal.ofInt (-2 ^ 127) ++ [' '])) =
        .ok ⟨-2 ^ 127, by decide, by decide⟩ := by
  obtain ⟨-, hrefused, haccepted⟩ := parse_grammar
  constructor
  · have hbare : Bare (String.ofList ('+' :: Decimal.ofNat (2 ^ 127) ++ ['x']))
        ('+' :: (Decimal.ofNat (2 ^ 127) ++ ['x'])) := bare_iff.2 (by decide +kernel)
    refine ((hrefused _ _ _ _ hbare (.plus _)).2.2 _).2 (.inl ⟨?_, rfl⟩)
    have hnumber : Decimal.number false 0 (Decimal.ofNat (2 ^ 127)) = 2 ^ 127 := by
      rw [Decimal.number, Decimal.ofDigitChars_ofNat]
      rfl
    refine ⟨_, List.prefix_append _ _, fun _ => Decimal.isDigit_of_mem_ofNat, ?_⟩
    rw [hnumber]
    decide
  · refine haccepted _ _ _ _ ?_ ?_
    · intro c hc
      rcases List.mem_pair.1 hc with rfl | rfl <;> decide
    · decide +kernel

end VaultBatch.Amount
