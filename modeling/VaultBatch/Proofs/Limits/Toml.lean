import Mathlib.Algebra.Group.Nat.Defs
import VaultBatch.Limits.Toml
import VaultBatch.Proofs.Fault
import VaultBatch.Proofs.Limits.Usable
import VaultBatch.Proofs.Text.Decimal

/-!
# Limits from the document that they are written to

Limits are written as one line for each key that is set, unless a number is too large for a document
(`toToml_eq_some_iff`). A line that was written sets its key (`readLine_written`), so that all lines
together make the settings again (`readLines_of_toToml`). Whatever text is read, the limits that it
sets are checked (`ofToml_eq_ok_iff`), and this check is all that reading back what was written can
fail at: `toml_round_trip`.
-/

namespace VaultBatch.Limits

variable {limits : Limits} {key : Key} {value : Nat} {earlier : Settings} {c : Char}
  {line rest : List Char} {text : String}

/-! ## Writing -/

/-- What limits set, in the order in which it is written. -/
def settings (limits : Limits) : Settings :=
  Key.all.filterMap fun key => (limits.get? key).map fun value => (key, value)

/-- The characters of the line that sets a key, but for the line feed. -/
def written (setting : Key × Nat) : List Char :=
  setting.1.name.toList ++ ' ' :: '=' :: ' ' :: Decimal.ofNat setting.2

/-- A line is what is written and a line feed. -/
theorem toList_line (setting : Key × Nat) :
    (Limits.line setting.1 setting.2).toList = written setting ++ ['\n'] := by
  simp [Limits.line, written]

/-- The settings of limits are the keys that are set, each with its value. -/
theorem mem_settings_iff : (key, value) ∈ limits.settings ↔ limits.get? key = some value := by
  have hall : key ∈ Key.all := by cases key <;> decide
  simp [settings, hall]

/-- The document of limits in terms of their settings. -/
theorem toToml_eq :
    limits.toToml =
      if limits.settings.all fun setting => setting.2 ≤ maxInteger then
        some (String.join (limits.settings.map fun setting => Limits.line setting.1 setting.2))
      else none := rfl

/-- Limits are written as one line for each setting, exactly if no number is above the largest
integer. -/
theorem toToml_eq_some_iff :
    limits.toToml = some text ↔
      (∀ setting ∈ limits.settings, setting.2 ≤ maxInteger) ∧
        text.toList = limits.settings.flatMap fun setting => written setting ++ ['\n'] := by
  rw [toToml_eq, Option.ite_none_right_eq_some, Option.some.injEq, ← String.toList_inj,
    String.toList_join, List.flatMap_map, eq_comm (a := List.flatMap _ _)]
  simp only [toList_line, List.all_eq_true, decide_eq_true_eq]

/-- Nothing is written exactly if a number is too large. -/
theorem toToml_eq_none_iff :
    limits.toToml = none ↔ ∃ key value, limits.get? key = some value ∧ maxInteger < value := by
  simp only [← mem_settings_iff, toToml_eq, ite_eq_right_iff, reduceCtorEq, imp_false]
  simp

/-! ## Lines -/

/-- A line ends at the first line feed behind it. -/
theorem lines_append (h : ∀ c ∈ line, c ≠ '\n' ∧ c ≠ '\r') :
    lines (line ++ '\n' :: rest) = line :: lines rest := by
  induction line with
  | nil => rfl
  | cons c line ih =>
      obtain ⟨hc, hline⟩ := List.forall_mem_cons.1 h
      rw [List.cons_append, lines, ih hline]
      · exact hc.1
      · intro _ heq
        exact absurd heq hc.2

/-- Lines that end with a line feed are found again, with an empty line behind them. -/
theorem lines_flatMap {α : Type} {write : α → List Char} {values : List α}
    (h : ∀ value ∈ values, ∀ c ∈ write value, c ≠ '\n' ∧ c ≠ '\r') :
    lines (values.flatMap fun value => write value ++ ['\n']) = values.map write ++ [[]] := by
  induction values with
  | nil => rfl
  | cons value values ih =>
      obtain ⟨hvalue, hvalues⟩ := List.forall_mem_cons.1 h
      rw [List.flatMap_cons, List.append_assoc, List.singleton_append, lines_append hvalue,
        ih hvalues, List.map_cons, List.cons_append]

/-! ## Keys -/

/-- The name of a key is not empty and has bare characters only. -/
theorem Key.name_eq_cons (key : Key) :
    ∃ c others, key.name.toList = c :: others ∧ isBare c = true ∧
      ∀ other ∈ others, isBare other = true := by
  cases key <;> exact ⟨_, _, rfl, rfl, List.all_eq_true.1 rfl⟩

/-- A key is found under its name. -/
@[simp] theorem Key.ofName?_name (key : Key) : ofName? key.name = some key := by
  cases key <;> decide

/-- A bare character is none that is not bare. -/
theorem ne_of_isBare {other : Char} (h : isBare c = true) (hother : isBare other = false) :
    c ≠ other := by
  rintro rfl
  rw [h] at hother
  cases hother

/-- A digit is a bare character. -/
theorem isBare_of_isDigit (h : c.isDigit = true) : isBare c = true := by
  simp [isBare, Char.isAlphanum, h]

/-- In front of a bare character there are no spaces to drop. -/
theorem dropSpaces_of_isBare (h : isBare c = true) : dropSpaces (c :: rest) = c :: rest := by
  have hspace : isSpace c = false := by
    simp [isSpace, ne_of_isBare h (by decide : isBare ' ' = false),
      ne_of_isBare h (by decide : isBare '\t' = false)]
  simp [dropSpaces, hspace]

/-- A blank is dropped with the spaces behind it. -/
theorem dropSpaces_blank : dropSpaces (' ' :: rest) = dropSpaces rest := rfl

/-- A line that starts with a key sets something. -/
theorem isLineEnd_of_isBare (h : isBare c = true) : isLineEnd (c :: rest) = false := by
  rw [isLineEnd, dropSpaces_of_isBare h]
  split
  · next heq => cases heq
  · next heq =>
    cases heq
    cases h
  · rfl

/-- A bare character is no byte order mark. -/
theorem dropByteOrderMark_of_isBare (h : isBare c = true) :
    dropByteOrderMark (c :: rest) = c :: rest := by
  rw [dropByteOrderMark]
  intro _ heq
  cases heq
  cases h

/-- A key ends at the blank behind it. -/
theorem readName_of_isBare {others : List Char} (hc : isBare c = true)
    (hothers : ∀ other ∈ others, isBare other = true) :
    readName (c :: (others ++ ' ' :: rest)) = some (c :: others, ' ' :: rest) := by
  have hblank : isBare ' ' = false := by decide
  rw [readName]
  · simp [List.takeWhile_append_of_pos hothers, List.dropWhile_append_of_pos hothers, hc, hblank]
  · intro _ heq
    cases heq
    cases hc
  · intro _ heq
    cases heq
    cases hc

/-! ## Numbers -/

/-- Digits are read to their end. -/
theorem readDigits_digits {digits : List Char} (h : ∀ c ∈ digits, c.isDigit = true) (n : Nat) :
    readDigits 10 n digits = (Nat.ofDigitChars 10 digits n, []) := by
  induction digits generalizing n with
  | nil => rfl
  | cons c digits ih =>
      obtain ⟨hc, hdigits⟩ := List.forall_mem_cons.1 h
      have hvalue : Digit.value? 10 c = some (c.toNat - 48) := by
        rw [Digit.value?_ten, if_pos hc]
      rw [readDigits, hvalue]
      · exact ih hdigits _
      · intro _ _ heq
        cases heq
        cases hc

/-- Digits, at least one, are read as the number that they stand for. -/
theorem readNumber_digits (hc : c.isDigit = true) (h : ∀ c ∈ rest, c.isDigit = true) :
    readNumber 10 (c :: rest) = some (Nat.ofDigitChars 10 (c :: rest) 0, []) := by
  rw [readNumber, Digit.value?_ten, if_pos hc, Option.map_some, readDigits_digits h,
    Nat.ofDigitChars_cons, Nat.mul_zero, Nat.zero_add]
  rfl

/-- A number without a sign that does not start with a zero is decimal. -/
theorem readValue_cons (hc : c.isDigit = true) (hzero : c ≠ '0') :
    readValue (c :: rest) = readNumber 10 (c :: rest) := by
  have hsign : c ≠ '+' ∧ c ≠ '-' := by
    constructor
    · rintro rfl
      cases hc
    · rintro rfl
      cases hc
  rw [readValue, readDecimal] <;> simp [hzero, hsign]

/-- The digits of a number are read as this number. -/
theorem readValue_ofNat (n : Nat) : readValue (Decimal.ofNat n) = some (n, []) := by
  obtain ⟨c, rest, heq, hc, hzero⟩ := Decimal.ofNat_eq_cons n
  have hvalue := Decimal.ofDigitChars_ofNat n
  by_cases hfirst : c = '0'
  · -- a zero stands alone, so that no base can follow it
    rw [heq, hfirst, hzero hfirst] at hvalue
    rw [heq, hfirst, hzero hfirst, ← hvalue]
    rfl
  · have hrest : ∀ digit ∈ rest, digit.isDigit = true := by
      intro digit hdigit
      refine Decimal.isDigit_of_mem_ofNat (n := n) ?_
      rw [heq]
      exact List.mem_cons_of_mem c hdigit
    rw [heq, readValue_cons hc hfirst, readNumber_digits hc hrest, ← heq, hvalue]

/-- A written number has no spaces in front. -/
theorem dropSpaces_ofNat (n : Nat) : dropSpaces (Decimal.ofNat n) = Decimal.ofNat n := by
  obtain ⟨c, rest, heq, hc, -⟩ := Decimal.ofNat_eq_cons n
  rw [heq, dropSpaces_of_isBare (isBare_of_isDigit hc)]

/-! ## Documents -/

/-- What is written has bare characters, blanks and equals signs only. -/
theorem mem_written {setting : Key × Nat} (h : c ∈ written setting) :
    isBare c = true ∨ c = ' ' ∨ c = '=' := by
  rcases List.mem_append.1 h with hname | hvalue
  · obtain ⟨first, others, heq, hfirst, hothers⟩ := setting.1.name_eq_cons
    rw [heq] at hname
    rcases List.mem_cons.1 hname with rfl | hother
    · exact .inl hfirst
    · exact .inl (hothers c hother)
  · simp only [List.mem_cons] at hvalue
    rcases hvalue with hblank | hequals | hblank | hdigit
    · exact .inr (.inl hblank)
    · exact .inr (.inr hequals)
    · exact .inr (.inl hblank)
    · exact .inl (isBare_of_isDigit (Decimal.isDigit_of_mem_ofNat hdigit))

/-- What is written for a key stays in one line. -/
theorem written_clean (setting : Key × Nat) : ∀ c ∈ written setting, c ≠ '\n' ∧ c ≠ '\r' := by
  intro c hc
  rcases mem_written hc with hbare | rfl | rfl
  · exact ⟨ne_of_isBare hbare (by decide), ne_of_isBare hbare (by decide)⟩
  · decide
  · decide

/-- A line that was written sets its key, unless this is set already. -/
theorem readLine_written (hvalue : value ≤ maxInteger) (hkey : earlier.lookup key = none) :
    readLine earlier (written (key, value)) = some ((key, value) :: earlier) := by
  obtain ⟨c, others, heq, hc, hothers⟩ := key.name_eq_cons
  have hwritten : written (key, value) =
      c :: (others ++ ' ' :: '=' :: ' ' :: Decimal.ofNat value) := by
    rw [written, heq, List.cons_append]
  have hname : Key.ofName? (String.ofList (c :: others)) = some key := by
    rw [← heq, String.ofList_toList, Key.ofName?_name]
  have hequals : dropSpaces (' ' :: '=' :: ' ' :: Decimal.ofNat value) =
      '=' :: ' ' :: Decimal.ofNat value := rfl
  have hnumber : readValue (dropSpaces (' ' :: Decimal.ofNat value)) = some (value, []) := by
    rw [dropSpaces_blank, dropSpaces_ofNat, readValue_ofNat]
  have hend : isLineEnd [] = true := rfl
  rw [readLine, hwritten, isLineEnd_of_isBare hc, dropSpaces_of_isBare hc,
    readName_of_isBare hc hothers]
  simp only [Option.bind_eq_bind, Option.bind_some, hname, hequals, hnumber]
  simp [hend, hvalue, hkey]

/-- Written lines set all their keys if each of them is set once. -/
theorem foldlM_written {given : Settings} (hkeys : (given.map Prod.fst).Nodup)
    (hvalues : ∀ setting ∈ given, setting.2 ≤ maxInteger)
    (hearlier : ∀ setting ∈ given, earlier.lookup setting.1 = none) :
    (given.map written).foldlM readLine earlier = some (given.reverse ++ earlier) := by
  induction given generalizing earlier with
  | nil => rfl
  | cons setting given ih =>
      obtain ⟨key, value⟩ := setting
      obtain ⟨hkey, hkeys⟩ := List.nodup_cons.1 hkeys
      obtain ⟨hvalue, hvalues⟩ := List.forall_mem_cons.1 hvalues
      obtain ⟨hunset, hearlier⟩ := List.forall_mem_cons.1 hearlier
      -- the keys of the lines that follow are still to be set
      have hlater : ∀ setting ∈ given, ((key, value) :: earlier).lookup setting.1 = none := by
        intro setting hsetting
        have hne : setting.1 ≠ key := by
          intro heq
          exact hkey (List.mem_map.2 ⟨setting, hsetting, heq⟩)
        rw [List.lookup_cons, beq_false_of_ne hne]
        exact hearlier setting hsetting
      rw [List.map_cons, List.foldlM_cons, readLine_written hvalue hunset, Option.bind_eq_bind,
        Option.bind_some, ih hkeys hvalues hlater, List.reverse_cons, List.append_assoc,
        List.singleton_append]

/-- Looked up from the last one on, the settings set each key as the limits do. -/
theorem lookup_reverse_settings (limits : Limits) (key : Key) :
    limits.settings.reverse.lookup key = limits.get? key := by
  obtain ⟨tokens, operations, instructions⟩ := limits
  cases operations <;> cases instructions <;> cases key <;> rfl

/-- No key is set twice. -/
theorem nodup_settings (limits : Limits) : (limits.settings.map Prod.fst).Nodup := by
  obtain ⟨tokens, operations, instructions⟩ := limits
  cases operations <;> cases instructions <;> simp [settings, Key.all, get?]

/-- Settings in which every key is looked up as in the limits are those of the limits. -/
theorem ofSettings_eq {given : Settings} (h : ∀ key, given.lookup key = limits.get? key) :
    ofSettings given = limits := by
  rw [ofSettings, h, h, h]
  rfl

/-- The settings that the lines of a text make, if they can be read. -/
def readLines (text : String) : Option Settings :=
  (lines (dropByteOrderMark text.toList)).foldlM readLine []

/-- The lines of a written document make the settings again, the last one first. -/
theorem readLines_of_toToml (h : limits.toToml = some text) :
    readLines text = some limits.settings.reverse := by
  obtain ⟨hvalues, htext⟩ := toToml_eq_some_iff.1 h
  -- the table size is always written, and its key is no byte order mark
  have hmark : dropByteOrderMark text.toList = text.toList := by
    obtain ⟨c, others, heq, hc, -⟩ := Key.name_eq_cons .maxTokens
    have hfirst : limits.settings = (.maxTokens, limits.maxTokens) :: limits.settings.tail := rfl
    rw [htext, hfirst, List.flatMap_cons, written, heq]
    exact dropByteOrderMark_of_isBare hc
  have hlines : lines text.toList = limits.settings.map written ++ [[]] := by
    rw [htext]
    exact lines_flatMap fun setting _ => written_clean setting
  have hfold : (limits.settings.map written).foldlM readLine [] =
      some (limits.settings.reverse ++ []) :=
    foldlM_written (nodup_settings limits) hvalues (by simp)
  rw [readLines, hmark, hlines, List.foldlM_append, hfold, List.append_nil]
  rfl

/-! ## Reading limits -/

/-- A document is read line by line, and the limits that it sets are checked. -/
theorem ofToml_eq :
    ofToml text =
      match readLines text with
      | none => .error .malformed
      | some settings => (ofSettings settings).check >>= fun _ => .ok (ofSettings settings) := rfl

/-- Limits are read exactly if they are what the lines set and can be used. -/
theorem ofToml_eq_ok_iff :
    ofToml text = .ok limits ↔
      ∃ given, readLines text = some given ∧ ofSettings given = limits ∧ limits.Usable := by
  rw [ofToml_eq]
  cases readLines text with
  | none => simp
  | some given =>
      simp only [bind_eq_ok_iff, Except.ok.injEq, Option.some.injEq, exists_eq_left']
      constructor
      · intro h
        obtain ⟨_, hcheck, rfl⟩ := h
        exact ⟨rfl, check_eq_ok_iff.1 hcheck⟩
      · intro h
        obtain ⟨rfl, husable⟩ := h
        exact ⟨(), check_eq_ok_iff.2 husable, rfl⟩

/-- A document is refused for its lines, or else for the limits that it sets. -/
theorem ofToml_eq_error_iff {error : LimitsError} :
    ofToml text = .error error ↔
      readLines text = none ∧ error = .malformed ∨
        ∃ given, readLines text = some given ∧ (ofSettings given).Refused error := by
  rw [ofToml_eq]
  cases readLines text with
  | none => simp [eq_comm]
  | some given => simp [bind_eq_error_iff, check_eq_error_iff]

/-- The largest integer as a power of two. -/
theorem maxInteger_eq : maxInteger = 2 ^ 63 - 1 := by
  decide

/-- Limits are written unless a number does not fit a document. What was written is read back
as the same limits exactly if these can be used, and else the first requirement that they do not
meet is reported. Whatever text limits are read from, they can be used, so that no packing fails
under them. -/
theorem toml_round_trip :
    (∀ limits : Limits, limits.toToml = none ↔
      ∃ key value, limits.get? key = some value ∧ 2 ^ 63 - 1 < value) ∧
    (∀ (limits : Limits) (text : String), limits.toToml = some text →
      (∀ other, ofToml text = .ok other ↔ limits.Usable ∧ other = limits) ∧
      ∀ error, ofToml text = .error error ↔ limits.Refused error) ∧
    ∀ (text : String) (limits : Limits), ofToml text = .ok limits →
      limits.Usable ∧
        ∀ operations error, Batch.compile limits operations ≠ .error (.encoding error) := by
  refine ⟨?_, ?_, ?_⟩
  · intro limits
    rw [← maxInteger_eq]
    exact toToml_eq_none_iff
  · intro limits text htext
    have hlines := readLines_of_toToml htext
    have hlimits : ofSettings limits.settings.reverse = limits :=
      ofSettings_eq (lookup_reverse_settings limits)
    constructor
    · intro other
      simp only [ofToml_eq_ok_iff, hlines, Option.some.injEq, exists_eq_left', hlimits]
      constructor
      · intro h
        obtain ⟨rfl, husable⟩ := h
        exact ⟨husable, rfl⟩
      · intro h
        obtain ⟨husable, rfl⟩ := h
        exact ⟨rfl, husable⟩
    · intro error
      simp [ofToml_eq_error_iff, hlines, hlimits]
  · intro text limits h
    obtain ⟨_, -, -, husable⟩ := ofToml_eq_ok_iff.1 h
    exact ⟨husable, husable.compile_ne_encoding⟩

/-- A key that is not set is not written, and limits that allow nothing are written but not read. -/
theorem toml_round_trip_zero :
    ofToml "max_tokens = 8\nmax_instructions_per_operation = 4\n" = .ok ⟨8, none, some 4⟩ ∧
      ofToml "max_tokens = 0\nmax_operations = 0\n" = .error (.tableSize 0) := by
  obtain ⟨-, hread, -⟩ := toml_round_trip
  constructor
  · have hwritten : toToml ⟨8, none, some 4⟩ =
        some "max_tokens = 8\nmax_instructions_per_operation = 4\n" := by decide
    exact ((hread _ _ hwritten).1 _).2 ⟨⟨by decide, by decide, by decide, by decide⟩, rfl⟩
  · have hwritten : toToml ⟨0, some 0, none⟩ =
        some "max_tokens = 0\nmax_operations = 0\n" := by decide
    exact ((hread _ _ hwritten).2 _).2 (.tableSize (.inl rfl))

end VaultBatch.Limits
