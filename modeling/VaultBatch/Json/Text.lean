import VaultBatch.Text.Digit

/-!
# JSON strings

A string stands between double quotes. Written, it has escapes for the quote, the backslash and the
control characters only; read, any character may be escaped, those above the first plane as two
units. `read_write` says that what is written is read back. Where a value is passed over, its
strings are read by the weaker rule `pass`, which does not look at whether units make characters.
-/

namespace VaultBatch.Json.Text

/-- Whether a character must be escaped in a string. -/
def isControl (c : Char) : Bool :=
  c.toNat < 0x20

/-- The characters with an escape of one letter, by letter. -/
def shortEscapes : List (Char × Char) :=
  [('"', '"'), ('\\', '\\'), ('/', '/'), ('b', '\x08'), ('f', '\x0c'), ('n', '\n'), ('r', '\r'),
    ('t', '\t')]

/-- A character as it is written in a string. -/
def escape (c : Char) : List Char :=
  if c = '"' then ['\\', '"']
  else if c = '\\' then ['\\', '\\']
  else if c = '\x08' then ['\\', 'b']
  else if c = '\x0c' then ['\\', 'f']
  else if c = '\n' then ['\\', 'n']
  else if c = '\r' then ['\\', 'r']
  else if c = '\t' then ['\\', 't']
  else if isControl c then
    ['\\', 'u', '0', '0', Nat.digitChar (c.toNat / 16), Nat.digitChar (c.toNat % 16)]
  else [c]

/-- A string between its quotes. -/
def write (text : List Char) : List Char :=
  '"' :: text.flatMap escape ++ ['"']

/-- The unit that four hexadecimal digits stand for. -/
def unit? (a b c d : Char) : Option Nat := do
  let a ← Digit.value? 16 a
  let b ← Digit.value? 16 b
  let c ← Digit.value? 16 c
  let d ← Digit.value? 16 d
  return 4096 * a + 256 * b + 16 * c + d

/-- Whether a unit is the first of two. -/
def isLeading (unit : Nat) : Bool :=
  0xd800 ≤ unit && unit < 0xdc00

/-- Whether a unit is the second of two. -/
def isTrailing (unit : Nat) : Bool :=
  0xdc00 ≤ unit && unit < 0xe000

/-- The character of a leading and a trailing unit. -/
def joinUnits (leading trailing : Nat) : Char :=
  Char.ofNat (0x10000 + 1024 * (leading - 0xd800) + (trailing - 0xdc00))

/-- Reads a string after its opening quote, and what follows the closing one. -/
def read : List Char → Option (List Char × List Char)
  | [] => none
  | '"' :: rest => some ([], rest)
  | '\\' :: 'u' :: a :: b :: c :: d :: rest => do
    let unit ← unit? a b c d
    if isTrailing unit then none
    else if isLeading unit then
      match rest with
      | '\\' :: 'u' :: e :: f :: g :: h :: rest => do
        let trailing ← unit? e f g h
        if isTrailing trailing then
          let (text, after) ← read rest
          some (joinUnits unit trailing :: text, after)
        else none
      | _ => none
    else
      let (text, after) ← read rest
      some (Char.ofNat unit :: text, after)
  | '\\' :: letter :: rest => do
    let c ← shortEscapes.lookup letter
    let (text, after) ← read rest
    some (c :: text, after)
  | c :: rest =>
    if isControl c || c = '\\' then none
    else do
      let (text, after) ← read rest
      some (c :: text, after)

/-- Passes over a string after its opening quote; units need not make characters. -/
def pass : List Char → Option (List Char)
  | [] => none
  | '"' :: rest => some rest
  | '\\' :: 'u' :: a :: b :: c :: d :: rest => do
    let _ ← unit? a b c d
    pass rest
  | '\\' :: letter :: rest => do
    let _ ← shortEscapes.lookup letter
    pass rest
  | c :: rest => if isControl c || c = '\\' then none else pass rest

/-- A character that needs no escape is read as it stands. -/
theorem read_cons_of_plain {c : Char} {rest : List Char} (hquote : c ≠ '"') (hslash : c ≠ '\\')
    (hcontrol : isControl c = false) :
    read (c :: rest) = (read rest).bind fun (text, after) => some (c :: text, after) := by
  rw [read.eq_def]
  split <;> simp_all

/-- An escape of one letter is read as the character that the letter stands for. -/
theorem read_short {c letter : Char} {rest : List Char} (hu : letter ≠ 'u')
    (h : shortEscapes.lookup letter = some c) :
    read ('\\' :: letter :: rest) =
      (read rest).bind fun (text, after) => some (c :: text, after) := by
  rw [read.eq_def]
  split
  · next heq => cases heq
  · next heq => cases heq
  · next heq => simp_all
  · next heq => cases heq; simp [h]
  · next hnot heq =>
    cases heq
    exact absurd rfl (hnot _ _ rfl)

/-- Control characters are read back from the two digits that they are written with. -/
theorem unit?_control : ∀ n < 32,
    unit? '0' '0' (Nat.digitChar (n / 16)) (Nat.digitChar (n % 16)) = some n := by
  decide

/-- Units of control characters are characters by themselves. -/
theorem isLeading_isTrailing_eq_false {unit : Nat} (h : unit < 32) :
    isLeading unit = false ∧ isTrailing unit = false := by
  simp only [isLeading, isTrailing, Bool.and_eq_false_iff, decide_eq_false_iff_not]
  omega

/-- The three ways in which a character is written in a string. -/
inductive EscapedAs (c : Char) : List Char → Prop where
  | short {letter : Char} :
      letter ≠ 'u' → shortEscapes.lookup letter = some c → EscapedAs c ['\\', letter]
  | control :
      c.toNat < 32 →
      EscapedAs c
        ['\\', 'u', '0', '0', Nat.digitChar (c.toNat / 16), Nat.digitChar (c.toNat % 16)]
  | plain : c ≠ '"' → c ≠ '\\' → isControl c = false → EscapedAs c [c]

/-- A character is written with its letter if it has one, else as a unit if it is a control
character, and else as it stands. -/
theorem escapedAs_escape (c : Char) : EscapedAs c (escape c) := by
  unfold escape
  split
  · next h => subst h; exact .short (by decide) rfl
  split
  · next h => subst h; exact .short (by decide) rfl
  split
  · next h => subst h; exact .short (by decide) rfl
  split
  · next h => subst h; exact .short (by decide) rfl
  split
  · next h => subst h; exact .short (by decide) rfl
  split
  · next h => subst h; exact .short (by decide) rfl
  split
  · next h => subst h; exact .short (by decide) rfl
  split
  · next hcontrol => exact .control (by simpa [isControl] using hcontrol)
  · next hquote hslash _ _ _ _ _ hcontrol =>
    exact .plain hquote hslash (by simpa using hcontrol)

/-- A character is read back from what it is written as, whatever stands behind. -/
theorem read_escape (c : Char) (rest : List Char) :
    read (escape c ++ rest) = (read rest).bind fun (text, after) => some (c :: text, after) := by
  have h := escapedAs_escape c
  generalize escape c = written at h ⊢
  cases h with
  | short hu hletter => exact read_short hu hletter
  | control hlt =>
      obtain ⟨hleading, htrailing⟩ := isLeading_isTrailing_eq_false hlt
      simp only [List.cons_append, List.nil_append, read, unit?_control _ hlt]
      simp [htrailing, hleading, Option.bind, bind]
  | plain hquote hslash hcontrol => exact read_cons_of_plain hquote hslash hcontrol

/-- A written string is read back. -/
theorem read_write (text rest : List Char) :
    read (text.flatMap escape ++ '"' :: rest) = some (text, rest) := by
  induction text with
  | nil => simp [read]
  | cons c text ih => simp [List.append_assoc, read_escape, ih]

end VaultBatch.Json.Text
