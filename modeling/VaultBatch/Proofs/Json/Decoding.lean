import Mathlib.Algebra.Group.Nat.Defs
import VaultBatch.Proofs.Fault
import VaultBatch.Proofs.Json.Spelling

/-!
# Values are read from all their spellings

`Reader.Decodes read (Spells · value ·) result` says that a reader makes the same of every spelling
of a value: the result, if there is one, and otherwise nothing behind which a text could go on. The
rules follow the readers of single values: strings (`checkedString_decodes`), names
(`oneOf_decodes`), natural numbers (`natural128_decodes`) and values that may be missing
(`optional_decodes`). `parse_eq_ok_iff` says what is then read from the whole text.
-/

namespace VaultBatch.Json

variable {α β : Type}

/-! ## What a value stands for -/

namespace Value

/-- The text of a string. -/
def text? : Value → Option String
  | .text s => some s
  | _ => none

/-- The number of plain digits. -/
def natural? : Value → Option Nat
  | .number literal =>
    if literal.all Char.isDigit then some (Nat.ofDigitChars 10 literal 0) else none
  | _ => none

/-- What a name stands for; the name is a string or the only name of an object with a null. -/
def named? (value? : String → Option α) : Value → Option α
  | .text name => value? name
  | .object [(name, .null)] => value? name
  | _ => none

/-- A null for none, or else what is read from the value. -/
def orNull (value : Value) (result : Option α) : Option (Option α) :=
  match value with
  | .null => some none
  | _ => result.map some

/-- An object stands for what its only name does, if the value is a null. -/
theorem named?_object_cons_eq_some_iff {value? : String → Option α} {name : String} {value : Value}
    {members : List (String × Value)} {found : α} :
    (object ((name, value) :: members)).named? value? = some found ↔
      value? name = some found ∧ value = .null ∧ members = [] := by
  cases value <;> cases members <;> simp [named?]

/-- A natural number is one. -/
@[simp] theorem natural?_natural (n : Nat) : (natural n).natural? = some n := by
  have hdigits : (Decimal.ofNat n).all Char.isDigit = true :=
    List.all_eq_true.2 fun c hc => Decimal.isDigit_of_mem_ofNat hc
  rw [natural, natural?, if_pos hdigits, Decimal.ofDigitChars_ofNat]

end Value

/-! ## Rules for readers -/

/-- The reader takes nothing and gives the result, if there is one. -/
def Reader.Concludes (read : Reader α) (result : Option α) : Prop :=
  ∀ text value after, read text = .ok (value, after) ↔ result = some value ∧ after = text

/-- In front of a rest to which the text is related, the reader makes the result and leaves the
rest. If there is no result, whatever the reader makes it breaks off where no value ends, as behind
the digits of a fraction. -/
def Reader.Decodes (read : Reader α) (spells : List Char → List Char → Prop) (result : Option α) :
    Prop :=
  ∀ ⦃start rest⦄, spells start rest → Delimited rest → ∀ value after, Delimited after →
    (read start = .ok (value, after) ↔ result = some value ∧ after = rest)

namespace Reader

variable {read : Reader α} {next : α → Reader β} {spells : List Char → List Char → Prop}
  {result : Option α} {final : α → Option β}

/-- Two readers read a text exactly if the second one reads what the first one leaves. -/
theorem bind_run_eq_ok_iff {start after : List Char} {value : β} :
    (read >>= next) start = .ok (value, after) ↔
      ∃ found middle, read start = .ok (found, middle) ∧
        next found middle = .ok (value, after) := by
  show (read start >>= fun taken => next taken.1 taken.2) = _ ↔ _
  rw [bind_eq_ok_iff, Prod.exists]

/-- A value is given without reading. -/
theorem concludes_pure (value : α) : (pure value : Reader α).Concludes (some value) := by
  intro text other after
  show Except.ok (value, text) = _ ↔ _
  simp [eq_comm]

/-- A fault gives no result. -/
theorem concludes_fail (error : Error) : (fail error : Reader α).Concludes none := by
  intro text value after
  simp [fail]

/-- Two readers that take nothing take nothing together. -/
theorem Concludes.bind (h : read.Concludes result) (hnext : ∀ x, (next x).Concludes (final x)) :
    (read >>= next).Concludes (result.bind final) := by
  intro text value after
  simp only [bind_run_eq_ok_iff, h text, hnext _ _, Option.bind_eq_some_iff]
  constructor
  · rintro ⟨found, _, ⟨hfound, rfl⟩, hvalue, rfl⟩
    exact ⟨⟨found, hfound, hvalue⟩, rfl⟩
  · rintro ⟨⟨found, hfound, hvalue⟩, rfl⟩
    exact ⟨found, _, ⟨hfound, rfl⟩, hvalue, rfl⟩

/-- A value that has been read is looked at without reading on. -/
theorem Decodes.conclude (h : read.Decodes spells result)
    (hnext : ∀ x, (next x).Concludes (final x)) :
    (read >>= next).Decodes spells (result.bind final) := by
  intro start rest hspells hrest value after hafter
  simp only [bind_run_eq_ok_iff, hnext _ _, Option.bind_eq_some_iff]
  constructor
  · rintro ⟨found, _, hread, hvalue, rfl⟩
    obtain ⟨hfound, rfl⟩ := (h hspells hrest found after hafter).1 hread
    exact ⟨⟨found, hfound, hvalue⟩, rfl⟩
  · rintro ⟨⟨found, hfound, hvalue⟩, rfl⟩
    exact ⟨found, after, (h hspells hrest found after hafter).2 ⟨hfound, rfl⟩, hvalue, rfl⟩

/-- A value is read after a step that takes nothing. -/
theorem Concludes.decodes (h : read.Concludes result)
    (hnext : ∀ x, (next x).Decodes spells (final x)) :
    (read >>= next).Decodes spells (result.bind final) := by
  intro start rest hspells hrest value after hafter
  simp only [bind_run_eq_ok_iff, h start, Option.bind_eq_some_iff]
  constructor
  · rintro ⟨found, _, ⟨hfound, rfl⟩, hread⟩
    obtain ⟨hvalue, rfl⟩ := (hnext found hspells hrest value after hafter).1 hread
    exact ⟨⟨found, hfound, hvalue⟩, rfl⟩
  · rintro ⟨⟨found, hfound, hvalue⟩, rfl⟩
    exact ⟨found, _, ⟨hfound, rfl⟩, (hnext found hspells hrest value _ hafter).2 ⟨hvalue, rfl⟩⟩

/-- A fault reads nothing from any spelling. -/
theorem decodes_fail (error : Error) : (fail error : Reader α).Decodes spells none := by
  intro start rest _ _ value after _
  simp [fail]

end Reader

open Reader

/-- The whole of a text is read. -/
theorem parse_eq_ok_iff {read : Reader α} {value : Value} {result : Option α} {text : String}
    {found : α} (h : read.Decodes (Spells · value ·) result) (htext : Document text value) :
    parse read text = .ok found ↔ result = some found := by
  obtain ⟨rest, hspells, hend⟩ := htext
  have hdelimited : ∀ {rest}, dropBlanks rest = [] → Delimited rest := by
    intro rest hrest
    refine delimited_of_dropBlanks ?_
    rw [hrest]
    simp
  unfold parse
  rw [bind_eq_ok_iff, Prod.exists]
  constructor
  · rintro ⟨other, after, hread, hfound⟩
    simp only at hfound
    split at hfound
    · next hempty =>
      cases hfound
      have hafter := hdelimited (List.isEmpty_iff.1 hempty)
      exact ((h hspells (hdelimited hend) _ _ hafter).1 hread).1
    · cases hfound
  · intro hresult
    have hafter := hdelimited hend
    refine ⟨found, rest, (h hspells hafter _ _ hafter).2 ⟨hresult, rfl⟩, ?_⟩
    simp only [hend, List.isEmpty_nil, if_true]
    rfl

/-! ## Strings and names -/

/-- A mismatch is no result. -/
theorem mismatch_ne_ok (wanted : Wanted) (text : List Char) (taken : β) :
    mismatch wanted text ≠ .ok taken := by
  intro h
  obtain ⟨_, -, hthrow⟩ := bind_eq_ok_iff.1 h
  cases hthrow

namespace Value

variable {value : Value} {c : Char}

/-- Only a null starts with an n. -/
theorem OpensWith.eq_null (h : value.OpensWith 'n') : value = .null := by
  cases value with
  | null => rfl
  | _ => simp [OpensWith] at h

/-- Only a string starts with a quote. -/
theorem OpensWith.eq_text (h : value.OpensWith '"') : ∃ s, value = .text s := by
  cases value with
  | text s => exact ⟨s, rfl⟩
  | _ => simp [OpensWith] at h

/-- Only an object starts with a brace. -/
theorem OpensWith.eq_object (h : value.OpensWith '\x7b') : ∃ members, value = .object members := by
  cases value with
  | object members => exact ⟨members, rfl⟩
  | _ => simp [OpensWith] at h

/-- Only a number starts with a digit. -/
theorem OpensWith.eq_number (h : value.OpensWith c) (hc : c.isDigit = true) :
    ∃ literal, value = .number literal := by
  cases value with
  | number literal => exact ⟨literal, rfl⟩
  | boolean => rcases h with rfl | rfl <;> cases hc
  | _ => cases h; cases hc

end Value

/-- A string is read from every spelling of a string, and from nothing else. -/
theorem string_decodes (wanted : Wanted) (value : Value) :
    (string wanted).Decodes (Spells · value ·) value.text? := by
  intro start rest hspells _ found after _
  unfold string
  by_cases hvalue : ∃ s, value = .text s
  · obtain ⟨s, rfl⟩ := hvalue
    cases hspells with
    | text heq htext =>
        rw [heq]
        show (orMalformed (Text.read _) >>= fun taken => _) = _ ↔ _
        rw [htext.read_eq]
        show Except.ok (String.ofList s.toList, rest) = _ ↔ _
        simp [Value.text?, eq_comm]
  · obtain ⟨c, inner, heq, hc⟩ := hspells.opensWith
    have hnone : value.text? ≠ some found := by
      intro htext
      cases value <;> cases htext
      exact hvalue ⟨_, rfl⟩
    rw [heq]
    split
    · next hquote =>
      cases hquote
      exact absurd hc.eq_text hvalue
    · simp [mismatch_ne_ok, hnone]

/-- What a string stands for is read from each of its spellings. -/
theorem checkedString_decodes (check : String → Except Rejection α) (value : Value) :
    (checkedString check).Decodes (Spells · value ·)
      (value.text?.bind fun s => (check s).toOption) := by
  refine (string_decodes .text value).conclude ?_
  intro s
  cases check s with
  | ok found => exact concludes_pure found
  | error reason => exact concludes_fail _

/-- The faults of a parser for texts are renamed, and what it parses is read. -/
theorem checkedString_mapError_decodes {ε : Type} (parse : String → Except ε α)
    (rename : ε → Rejection) (value : Value) :
    (checkedString fun text => (parse text).mapError rename).Decodes (Spells · value ·)
      (value.text?.bind fun text => (parse text).toOption) := by
  have hread := checkedString_decodes (fun text => (parse text).mapError rename) value
  simp only [toOption_mapError] at hread
  exact hread

/-- What a name stands for is given without reading. -/
theorem ofName_run_eq_ok_iff {value? : String → Option α} {names : List String} {name : String}
    {text after : List Char} {found : α} :
    ofName value? names name text = .ok (found, after) ↔
      value? name = some found ∧ after = text := by
  unfold ofName
  cases value? name with
  | none => simp [fail]
  | some other =>
      show Except.ok (other, text) = _ ↔ _
      simp [eq_comm]

/-- A null is read from every spelling of a null, and from nothing else. -/
theorem Spells.unit_eq_ok_iff {start rest : List Char} {value : Value} (h : Spells start value rest)
    {taken : Unit × List Char} : unit start = .ok taken ↔ value = .null ∧ taken = ((), rest) := by
  unfold unit
  by_cases hvalue : value = .null
  · cases hvalue
    cases h with
    | null heq => simp [heq, eq_comm]
  · obtain ⟨c, inner, heq, hc⟩ := h.opensWith
    rw [heq]
    split
    · next hn =>
      cases hn
      exact absurd hc.eq_null hvalue
    · simp [mismatch_ne_ok, hvalue]

/-- A colon is read exactly if it stands behind the blanks. -/
theorem colon_eq_ok_iff {start : List Char} {taken : Unit × List Char} :
    colon start = .ok taken ↔ dropBlanks start = ':' :: taken.2 := by
  unfold colon
  split
  · next heq => simp [heq, Prod.ext_iff]
  · next hnot => exact ⟨nofun, fun heq => absurd heq (hnot taken.2)⟩

/-- The name of an object with a null behind it is read if it is the only one. -/
theorem oneOf_object_eq_ok_iff {value? : String → Option α} {names : List String}
    {start inner middle rest after : List Char} {member : String × Value}
    {members : List (String × Value)} {found : α} (heq : dropBlanks start = '\x7b' :: inner)
    (hmember : SpellsMember inner member middle) (hmembers : SpellsMembers middle members rest) :
    oneOf value? names start = .ok (found, after) ↔
      value? member.1 = some found ∧ member.2 = .null ∧ members = [] ∧ after = rest := by
  cases hmember with
  | member hquote hname hcolon hvalue =>
      unfold oneOf
      simp only [heq, hquote, hname.read_eq, orMalformed, bind_eq_ok_iff, Prod.exists,
        ofName_run_eq_ok_iff, colon_eq_ok_iff, Except.ok.injEq, Prod.mk.injEq]
      constructor
      · rintro ⟨_, _, ⟨rfl, rfl⟩, _, _, ⟨hfound, rfl⟩, _, _, hcolon', _, _, hunit, hclose⟩
        rw [String.ofList_toList] at hfound
        cases hcolon.symm.trans hcolon'
        obtain ⟨hnull, htaken⟩ := hvalue.unit_eq_ok_iff.1 hunit
        cases htaken
        cases hmembers with
        | close hend =>
            rw [hend] at hclose
            cases hclose
            exact ⟨hfound, hnull, rfl, rfl⟩
        | member hcomma =>
            rw [hcomma] at hclose
            cases hclose
      · rintro ⟨hfound, hnull, rfl, rfl⟩
        cases hmembers with
        | close hend =>
            refine ⟨_, _, ⟨rfl, rfl⟩, found, _, ⟨?_, rfl⟩, (), _, hcolon, (), middle, ?_, ?_⟩
            · rw [String.ofList_toList, hfound]
            · exact hvalue.unit_eq_ok_iff.2 ⟨hnull, rfl⟩
            · rw [hend]
              rfl

/-- Only a string or an object may stand for a name. -/
theorem Spells.oneOf_ne_ok {start rest : List Char} {value : Value} (h : Spells start value rest)
    (htext : ∀ s, value ≠ .text s) (hobject : ∀ members, value ≠ .object members)
    {value? : String → Option α} {names : List String} {taken : α × List Char} :
    oneOf value? names start ≠ .ok taken := by
  obtain ⟨c, inner, heq, hc⟩ := h.opensWith
  unfold oneOf
  rw [heq]
  split
  · next hquote =>
    cases hquote
    obtain ⟨s, rfl⟩ := hc.eq_text
    exact absurd rfl (htext s)
  · next hopen =>
    cases hopen
    obtain ⟨members, rfl⟩ := hc.eq_object
    exact absurd rfl (hobject members)
  · exact nofun

/-- A name is read from each spelling of the string, or of the object with the string as its only
name and a null. -/
theorem oneOf_decodes (value? : String → Option α) (names : List String) (value : Value) :
    (oneOf value? names).Decodes (Spells · value ·) (value.named? value?) := by
  intro start rest hspells _ found after _
  have hother : (∀ s, value ≠ .text s) → (∀ members, value ≠ .object members) →
      oneOf value? names start ≠ .ok (found, after) :=
    fun htext hobject => hspells.oneOf_ne_ok htext hobject
  cases hspells with
  | text heq htext =>
      unfold oneOf
      rw [heq]
      show (orMalformed (Text.read _) >>= fun taken => _) = _ ↔ _
      rw [htext.read_eq]
      show ofName value? names (String.ofList _) rest = _ ↔ _
      rw [String.ofList_toList, ofName_run_eq_ok_iff]
      rfl
  | emptyObject heq hclose =>
      unfold oneOf
      simp [heq, hclose, Value.named?]
  | @object _ _ _ _ member members heq hmember hmembers =>
      obtain ⟨name, value⟩ := member
      rw [oneOf_object_eq_ok_iff heq hmember hmembers, Value.named?_object_cons_eq_some_iff]
      simp only [and_assoc]
  | _ => exact iff_of_false (hother nofun nofun) (by simp [Value.named?])

/-! ## Values that may be missing -/

/-- A spelling may have its blanks dropped. -/
theorem Spells.withoutBlanks {start rest : List Char} {value : Value}
    (h : Spells start value rest) :
    Spells (dropBlanks start) value rest := by
  obtain ⟨c, inner, heq, -⟩ := h.opensWith
  have hdrop := dropBlanks_cons_of_eq heq
  rw [← heq] at hdrop
  cases h with
  | null h => exact .null (hdrop.trans h)
  | boolean value h => exact .boolean value (hdrop.trans h)
  | number hnumber h => exact .number hnumber (hdrop.trans h)
  | text h htext => exact .text (hdrop.trans h) htext
  | emptySequence h hclose => exact .emptySequence (hdrop.trans h) hclose
  | sequence h hvalue hvalues => exact .sequence (hdrop.trans h) hvalue hvalues
  | emptyObject h hclose => exact .emptyObject (hdrop.trans h) hclose
  | object h hmember hmembers => exact .object (hdrop.trans h) hmember hmembers

/-- A null is read as none and everything else as the value. -/
theorem optional_decodes {read : Reader α} {value : Value} {result : Option α}
    (h : read.Decodes (Spells · value ·) result) :
    (optional read).Decodes (Spells · value ·) (value.orNull result) := by
  intro start rest hspells hrest found after hafter
  unfold optional
  -- the reader decides by the first letter, with which only a null starts
  by_cases hvalue : value = .null
  · cases hvalue
    cases hspells with
    | null heq => simp [heq, Value.orNull, eq_comm]
  · obtain ⟨c, inner, heq, hc⟩ := hspells.opensWith
    have hn : c ≠ 'n' := by
      rintro rfl
      exact hvalue hc.eq_null
    have hread := h hspells.withoutBlanks hrest
    have hnull : value.orNull result = result.map some := by
      cases value with
      | null => exact absurd rfl hvalue
      | _ => rfl
    rw [heq] at hread ⊢
    split
    · next hletter => exact absurd (List.cons.inj hletter).1 hn
    · next hletter => exact absurd (List.cons.inj hletter).1 hn
    · simp only [bind_eq_ok_iff, Prod.exists, hnull, Option.map_eq_some_iff]
      constructor
      · rintro ⟨value, middle, hvalue, hfound⟩
        cases hfound
        obtain ⟨hresult, rfl⟩ := (hread _ _ hafter).1 hvalue
        exact ⟨⟨value, hresult, rfl⟩, rfl⟩
      · rintro ⟨⟨value, hresult, rfl⟩, rfl⟩
        exact ⟨value, after, (hread _ _ hafter).2 ⟨hresult, rfl⟩, rfl⟩

/-! ## Numbers -/

/-- Without a digit in front there is no whole part. -/
theorem Lexeme.splitWhole_of_stops {text : List Char} (h : Stops text) :
    splitWhole text = none := by
  unfold splitWhole
  rw [splitDigits_of_stops h]

/-- Without a sign, all digits are read, and read as one number. -/
theorem wideInteger_false_eq_ok_iff {high value : Int} {start after : List Char} :
    wideInteger false 0 high start = .ok (value, after) ↔
      ∃ digits, Lexeme.splitWhole (dropBlanks start) = some (digits, after) ∧
        (Lexeme.natOfDigits digits : Int) = value ∧ value ≤ high := by
  unfold wideInteger
  split
  · next inner heq =>
    have hnone := Lexeme.splitWhole_of_stops (stops_cons (c := '-') rfl inner)
    rw [heq, hnone]
    exact ⟨nofun, nofun⟩
  · show (orMalformed (Lexeme.splitWhole (dropBlanks start)) >>= fun taken => _) = _ ↔ _
    cases Lexeme.splitWhole (dropBlanks start) with
    | none => exact ⟨nofun, nofun⟩
    | some taken =>
        obtain ⟨digits, rest⟩ := taken
        have hbounds : 0 ≤ (Lexeme.natOfDigits digits : Int) ∧
            (Lexeme.natOfDigits digits : Int) ≤ high ↔ (Lexeme.natOfDigits digits : Int) ≤ high :=
          and_iff_right (Int.natCast_nonneg _)
        show (if 0 ≤ (Lexeme.natOfDigits digits : Int) ∧ (Lexeme.natOfDigits digits : Int) ≤ high
          then Except.ok ((Lexeme.natOfDigits digits : Int), rest) else _) = _ ↔ _
        simp only [hbounds, Option.some.injEq, Prod.mk.injEq]
        constructor
        · intro h
          split at h
          · next hle =>
            cases h
            exact ⟨digits, ⟨rfl, rfl⟩, rfl, hle⟩
          · cases h
        · rintro ⟨_, ⟨rfl, rfl⟩, rfl, hle⟩
          rw [if_pos hle]

/-- A natural number is read exactly from a whole part that is below 2^128. -/
theorem natural128_eq_ok_iff {start after : List Char} {n : Nat} :
    natural128 start = .ok (n, after) ↔
      ∃ digits, Lexeme.splitWhole (dropBlanks start) = some (digits, after) ∧
        Lexeme.natOfDigits digits = n ∧ n < 2 ^ 128 := by
  unfold natural128
  simp only [bind_run_eq_ok_iff, wideInteger_false_eq_ok_iff]
  constructor
  · rintro ⟨_, _, ⟨digits, hsplit, rfl, hle⟩, hvalue⟩
    cases hvalue
    exact ⟨digits, hsplit, rfl, by rw [Int.toNat_natCast]; omega⟩
  · rintro ⟨digits, hsplit, rfl, hlt⟩
    exact ⟨_, after, ⟨digits, hsplit, rfl, by omega⟩, rfl⟩

/-- A number with a character that is no digit is no natural number. -/
theorem natural?_append_eq_none {literal : List Char} {c : Char} (h : c ∈ literal)
    (hc : c.isDigit = false) : (Value.number literal).natural? = none := by
  refine if_neg ?_
  rw [List.all_eq_true]
  intro hall
  rw [hall c h] at hc
  cases hc

/-- Of a number only plain digits are split off up to its end. -/
theorem Spells.splitWhole_eq_some_iff {start rest after : List Char} {value : Value}
    {digits : List Nat} (h : Spells start value rest) (hrest : Delimited rest)
    (hafter : Delimited after) :
    Lexeme.splitWhole (dropBlanks start) = some (digits, after) ↔
      ∃ n, value.natural? = some n ∧ digits = Lexeme.digits n ∧ after = rest := by
  obtain ⟨c, inner, heq, hc⟩ := h.opensWith
  by_cases hdigit : c.isDigit = true
  · obtain ⟨literal, rfl⟩ := hc.eq_number hdigit
    cases h with
    | number hnumber hliteral =>
        cases hnumber with
        | positive n htail =>
            rcases htail.eq_nil_or with rfl | ⟨point, more, rfl, hpoint⟩
            · rw [hliteral, List.append_nil, Lexeme.splitWhole_ofNat n hrest.stops, ← Value.natural,
                Value.natural?_natural]
              simp [eq_comm]
            · -- the digits end at a point or a letter, and no value ends there
              have hstop : point.isDigit = false := by
                rcases hpoint with rfl | rfl | rfl <;> rfl
              have hsplit := Lexeme.splitWhole_ofNat n (stops_cons hstop (more ++ rest))
              rw [hliteral, List.append_assoc, List.cons_append, hsplit,
                natural?_append_eq_none (by simp) hstop]
              refine iff_of_false ?_ (by simp)
              intro hsome
              cases hsome
              have hend := hafter point rfl
              rcases hpoint with rfl | rfl | rfl <;> simp [isBlank] at hend
        | negative n htail =>
            rw [hliteral] at heq
            cases heq
            cases hdigit
  · have hstop := Bool.eq_false_iff.2 hdigit
    rw [heq, Lexeme.splitWhole_of_stops (stops_cons hstop inner)]
    refine iff_of_false (by simp) ?_
    rintro ⟨n, hvalue, -⟩
    cases h with
    | number hnumber hliteral =>
        obtain ⟨d, more, rfl, -⟩ := hnumber.eq_cons
        cases heq.symm.trans hliteral
        rw [natural?_append_eq_none List.mem_cons_self hstop] at hvalue
        cases hvalue
    | _ => cases hvalue

/-- A natural number is read if it has up to 128 bits. -/
theorem natural128_decodes (value : Value) :
    natural128.Decodes (Spells · value ·) (value.natural?.filter (· < 2 ^ 128)) := by
  intro start rest hspells hrest n after hafter
  simp only [natural128_eq_ok_iff, hspells.splitWhole_eq_some_iff hrest hafter,
    Option.filter_eq_some_iff, decide_eq_true_eq]
  constructor
  · rintro ⟨_, ⟨m, hvalue, rfl, rfl⟩, rfl, hlt⟩
    rw [Lexeme.natOfDigits_digits] at hlt ⊢
    exact ⟨⟨hvalue, hlt⟩, rfl⟩
  · rintro ⟨⟨hvalue, hlt⟩, rfl⟩
    exact ⟨_, ⟨n, hvalue, rfl, rfl⟩, Lexeme.natOfDigits_digits n, hlt⟩

end VaultBatch.Json
