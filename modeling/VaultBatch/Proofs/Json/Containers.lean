import VaultBatch.Proofs.Json.Answers

/-!
# Written sequences and objects are read back

A sequence is read back if its values are (`list_answers`). Of an object the members are read in the
order in which they are written, each onto what the ones before it have made; `Collects` follows
them, up to the first fault if there is one, and `record_answers` and `record_stops` give what is
read from the object.
-/

namespace VaultBatch.Json

variable {α β γ : Type}

open Reader

/-! ## Parts with commas between them -/

/-- Parts with a comma before each. -/
def following (parts : List (List Char)) : List Char :=
  parts.flatMap (',' :: ·)

/-- The first part stands alone, and each other one behind a comma. -/
theorem separated_cons (part : List Char) (parts : List (List Char)) :
    Writer.separated (part :: parts) = part ++ following parts := by
  induction parts generalizing part with
  | nil => simp [Writer.separated, following]
  | cons next parts ih =>
      rw [Writer.separated, ih]
      · rfl
      · simp

/-- With a comma before it, the first part stands as the others do. -/
theorem following_cons (part : List Char) (parts : List (List Char)) :
    following (part :: parts) = ',' :: Writer.separated (part :: parts) := by
  rw [separated_cons]
  rfl

/-- The first part ends where the others or the closing mark begin. -/
theorem delimited_following (parts : List (List Char)) {close : Char}
    (h : close = ',' ∨ close = ']' ∨ close = '\x7d') (rest : List Char) :
    Delimited (following parts ++ close :: rest) := by
  cases parts with
  | nil => exact delimited_cons h rest
  | cons part parts => exact delimited_cons (.inl rfl) _

/-- The further parts have a character each, at least. -/
theorem length_le_following (parts : List (List Char)) :
    parts.length ≤ (following parts).length := by
  induction parts with
  | nil => exact Nat.le_refl 0
  | cons part parts ih =>
      simp only [following, List.flatMap_cons, List.length_append, List.length_cons] at ih ⊢
      omega

/-- There are at most as many parts as characters in front of a closing bracket. -/
theorem length_lt_separated {parts : List (List Char)} (h : ∀ part ∈ parts, part ≠ [])
    (close : Char) (rest : List Char) :
    parts.length < (Writer.separated parts ++ close :: rest).length := by
  cases parts with
  | nil => exact Nat.succ_pos _
  | cons part parts =>
      have hpart : 0 < part.length := List.length_pos_iff.2 (h part List.mem_cons_self)
      have hparts := length_le_following parts
      rw [separated_cons]
      simp only [List.length_append, List.length_cons]
      omega

/-! ## Sequences -/

/-- A text that opens a value is the first one of a sequence. -/
theorem Opens.next_first {text : List Char} (h : Opens text) (rest : List Char) :
    next true (text ++ rest) = .ok (true, text ++ rest) := by
  have hblanks := h.dropBlanks_append rest
  obtain ⟨c, text, rfl, -, hend⟩ := h
  unfold next
  rw [hblanks, List.cons_append]
  split
  · next heq => cases heq
  · next heq => exact absurd (List.cons.inj heq).1 hend
  · next heq =>
    cases heq
    rfl

/-- Behind a comma, a text that opens a value is the next one of a sequence. -/
theorem Opens.next_comma {text : List Char} (h : Opens text) (rest : List Char) :
    next false (',' :: (text ++ rest)) = .ok (true, text ++ rest) := by
  have hblanks := h.dropBlanks_append rest
  obtain ⟨c, text, rfl, -, hend⟩ := h
  rw [List.cons_append] at hblanks ⊢
  have hcomma : dropBlanks (',' :: c :: (text ++ rest)) = ',' :: c :: (text ++ rest) := rfl
  unfold next
  rw [hcomma]
  split
  · next heq => cases heq
  · next heq => cases heq
  · next heq =>
    obtain ⟨rfl, rfl⟩ := List.cons.inj heq
    simp only [hblanks, Bool.false_eq_true, if_false, if_true]
    split
    · next heq => cases heq
    · next heq => exact absurd (List.cons.inj heq).1 hend
    · rfl

/-- A closing bracket ends a sequence. -/
theorem elements_end (read : Reader α) (count : Nat) (first : Bool) (rest : List Char) :
    elements read (count + 1) first (']' :: rest) = .ok ([], rest) :=
  rfl

/-- A value is read in front of the others of a sequence. -/
theorem elements_value {read : Reader α} {count : Nat} {first : Bool} {text inner after : List Char}
    {value : α} (hnext : next first text = .ok (true, inner))
    (hread : read inner = .ok (value, after)) :
    elements read (count + 1) first text =
      (elements read count false after).map fun taken => (value :: taken.1, taken.2) := by
  show (next first text >>= fun taken => _) = _
  rw [hnext]
  show (read inner >>= fun taken => _) = _
  rw [hread]
  show (elements read count false after >>= fun taken => _) = _
  cases elements read count false after <;> rfl

variable {write : α → List Char}

/-- The further values of a sequence are read back if each of them is. -/
theorem elements_following {read : Reader α}
    (h : ∀ value, read.Answers (write value) (.ok value)) {values : List α} {count : Nat}
    (hcount : values.length < count) (rest : List Char) :
    elements read count false (following (values.map write) ++ ']' :: rest) =
      .ok (values, rest) := by
  induction values generalizing count with
  | nil =>
      obtain ⟨count, rfl⟩ := Nat.exists_eq_add_one_of_ne_zero (Nat.ne_zero_of_lt hcount)
      exact elements_end read count false rest
  | cons value values ih =>
      obtain ⟨count, rfl⟩ := Nat.exists_eq_add_one_of_ne_zero (Nat.ne_zero_of_lt hcount)
      have htext : following ((value :: values).map write) ++ ']' :: rest =
          ',' :: (write value ++ (following (values.map write) ++ ']' :: rest)) := by
        simp [following]
      have hread :=
        (h value).append _ (delimited_following (values.map write) (.inr (.inl rfl)) rest)
      rw [htext, elements_value ((h value).opens.next_comma _) hread,
        ih (Nat.lt_of_succ_lt_succ hcount)]
      rfl

/-- The first value is read as one behind a comma is. -/
theorem Opens.elements_first {text : List Char} (h : Opens text) (read : Reader α) (count : Nat)
    (rest : List Char) :
    elements read (count + 1) true (text ++ rest) =
      elements read (count + 1) false (',' :: (text ++ rest)) := by
  show (next true (text ++ rest) >>= fun taken => _) =
    (next false (',' :: (text ++ rest)) >>= fun taken => _)
  rw [h.next_first, h.next_comma]

/-- Sequences are read back if values are. -/
theorem list_answers {read : Reader α} (h : ∀ value, read.Answers (write value) (.ok value))
    (values : List α) :
    (list read).Answers (Writer.sequence (values.map write)) (.ok values) := by
  refine ⟨⟨'[', _, rfl, rfl, by decide⟩, ?_⟩
  intro rest _
  have htext : Writer.sequence (values.map write) ++ rest =
      '[' :: (Writer.separated (values.map write) ++ ']' :: rest) := by
    simp [Writer.sequence]
  have hne : ∀ part ∈ values.map write, part ≠ [] := by
    intro part hpart
    obtain ⟨value, -, rfl⟩ := List.mem_map.1 hpart
    exact (h value).opens.ne_nil
  -- the reader counts down from the length of the text, which exceeds the number of values
  have hcount := length_lt_separated hne ']' rest
  rw [htext]
  show elements read (Writer.separated (values.map write) ++ ']' :: rest).length true
    (Writer.separated (values.map write) ++ ']' :: rest) = _
  obtain ⟨count, hlength⟩ := Nat.exists_eq_add_one_of_ne_zero (Nat.ne_zero_of_lt hcount)
  rw [List.length_map, hlength] at hcount
  rw [hlength]
  cases values with
  | nil => exact elements_end read count true rest
  | cons value values =>
      have hread := elements_following h hcount rest
      rw [List.map_cons, following_cons, separated_cons, List.cons_append,
        List.append_assoc] at hread
      rw [List.map_cons, separated_cons, List.append_assoc,
        (h value).opens.elements_first, hread]
      rfl

/-! ## Objects -/

/-- The value of a member is read after the colon. -/
theorem member_answers {read : Reader α} {text : List Char} {outcome : Except Error α}
    (h : read.Answers text outcome) : (member read).Answers (':' :: text) outcome := by
  refine ⟨⟨':', text, rfl, rfl, by decide⟩, ?_⟩
  intro rest hrest
  exact h.append rest hrest

/-- A member that has not stood before is put into its place. -/
theorem once_answers {read : Reader α} {text : List Char} {outcome : Except Error α} {name : String}
    {put : α → β} (h : read.Answers text outcome) :
    (do
      once (none : Option γ) name
      return put (← member read) : Reader β).Answers (':' :: text) (outcome.map put) := by
  have honce : (once (none : Option γ) name).Settles (.ok ()) := settles_pure ()
  refine honce.answer ?_
  cases outcome with
  | ok value => exact (member_answers h).settle (settles_pure _)
  | error error => exact (member_answers h).stop

/-- The members are read one after the other onto a state, until they end or one is faulty. -/
inductive Collects (step : β → String → Reader β) :
    β → List (String × List Char) → Except Error β → Prop where
  | done (state : β) : Collects step state [] (.ok state)
  | member {state next : β} {name : String} {text : List Char} {rest : List (String × List Char)}
    {outcome : Except Error β} (h : (step state name).Answers (':' :: text) (.ok next))
    (hrest : Collects step next rest outcome) : Collects step state ((name, text) :: rest) outcome
  | fault {state : β} {name : String} {text : List Char} {rest : List (String × List Char)}
    {error : Error} (h : (step state name).Answers (':' :: text) (.error error)) :
    Collects step state ((name, text) :: rest) (.error error)

/-- The written members of an object. -/
def writeMembers (parts : List (String × List Char)) : List (List Char) :=
  parts.map fun part => Writer.member part.1 part.2

/-- The first member is a name, a colon and a value, and the others stand behind commas. -/
theorem separated_members (name : String) (text : List Char) (parts : List (String × List Char))
    (rest : List Char) :
    Writer.separated (writeMembers ((name, text) :: parts)) ++ rest =
      Writer.text name ++ (':' :: text ++ (following (writeMembers parts) ++ rest)) := by
  rw [writeMembers, List.map_cons, ← writeMembers, separated_cons, Writer.member, List.append_assoc,
    List.append_assoc]

/-- A further member is a comma, a name, a colon and a value, and the others stand behind it. -/
theorem following_members (name : String) (text : List Char) (parts : List (String × List Char))
    (rest : List Char) :
    following (writeMembers ((name, text) :: parts)) ++ rest =
      ',' :: (Writer.text name ++ (':' :: text ++ (following (writeMembers parts) ++ rest))) := by
  rw [← separated_members]
  exact congrArg (· ++ rest) (following_cons _ _)

/-- A closing brace ends an object. -/
theorem members_end (step : β → String → Reader β) (count : Nat) (first : Bool) (state : β)
    (rest : List Char) :
    members step (count + 1) first state ('\x7d' :: rest) = .ok (state, rest) :=
  rfl

/-- The first member is read as one behind a comma is. -/
theorem members_first (step : β → String → Reader β) (count : Nat) (state : β) (name : String)
    (rest : List Char) :
    members step (count + 1) true state (Writer.text name ++ rest) =
      members step (count + 1) false state (',' :: (Writer.text name ++ rest)) :=
  rfl

/-- Behind a comma, the next member is read onto the state. -/
theorem members_comma (step : β → String → Reader β) (count : Nat) (state : β) (name : String)
    (rest : List Char) :
    members step (count + 1) false state (',' :: (Writer.text name ++ rest)) =
      (step state name rest >>= fun taken => members step count false taken.1 taken.2) := by
  rw [text_append]
  show (orMalformed (Text.read _) >>= fun taken => _) = _
  rw [Text.read_write]
  show (step state (String.ofList name.toList) rest >>= fun taken => _) = _
  rw [String.ofList_toList]

variable {step : β → String → Reader β} {start state : β} {parts : List (String × List Char)}
  {collected : Except Error β}

/-- The further members of an object are read back as they are collected. -/
theorem Collects.members_following (h : Collects step state parts collected) {count : Nat}
    (hcount : parts.length < count) (rest : List Char) :
    members step count false state (following (writeMembers parts) ++ '\x7d' :: rest) =
      collected.map fun result => (result, rest) := by
  have hdelimited : ∀ parts, Delimited (following (writeMembers parts) ++ '\x7d' :: rest) :=
    fun parts => delimited_following _ (.inr (.inr rfl)) rest
  induction h generalizing count with
  | done state =>
      obtain ⟨count, rfl⟩ := Nat.exists_eq_add_one_of_ne_zero (Nat.ne_zero_of_lt hcount)
      exact members_end step count false state rest
  | member h hrest ih =>
      obtain ⟨count, rfl⟩ := Nat.exists_eq_add_one_of_ne_zero (Nat.ne_zero_of_lt hcount)
      rw [following_members, members_comma, h.append _ (hdelimited _)]
      exact ih (Nat.lt_of_succ_lt_succ hcount)
  | fault h =>
      obtain ⟨count, rfl⟩ := Nat.exists_eq_add_one_of_ne_zero (Nat.ne_zero_of_lt hcount)
      rw [following_members, members_comma, h.append _ (hdelimited _)]
      rfl

/-- What is read from the members of a whole object. -/
theorem Collects.members_object (h : Collects step start parts collected) (rest : List Char) :
    ∃ inner, Writer.object parts ++ rest = '\x7b' :: inner ∧
      members step inner.length true start inner = collected.map fun result => (result, rest) := by
  refine ⟨Writer.separated (writeMembers parts) ++ '\x7d' :: rest, ?_, ?_⟩
  · simp [Writer.object, writeMembers]
  · have hne : ∀ part ∈ writeMembers parts, part ≠ [] := by
      intro part hpart
      obtain ⟨member, -, rfl⟩ := List.mem_map.1 hpart
      exact List.cons_ne_nil _ _
    have hcount := length_lt_separated hne '\x7d' rest
    obtain ⟨count, hlength⟩ := Nat.exists_eq_add_one_of_ne_zero (Nat.ne_zero_of_lt hcount)
    rw [writeMembers, List.length_map, ← writeMembers, hlength] at hcount
    rw [hlength]
    cases parts with
    | nil =>
        cases h
        exact members_end step count true start rest
    | cons part parts =>
        rw [← h.members_following hcount rest, separated_members, following_members]
        exact members_first step count start _ _

/-- A written object opens with its brace. -/
theorem opens_object (parts : List (String × List Char)) : Opens (Writer.object parts) :=
  ⟨'\x7b', _, rfl, rfl, by decide⟩

/-- The members of an object are collected, and what they make is made of the outcome. -/
theorem Collects.record_append {wanted : Wanted} {finish : β → Reader α} {places : Reader α}
    (h : Collects step start parts collected) (rest : List Char) :
    record wanted step start finish places (Writer.object parts ++ rest) =
      (collected.map fun result => (result, rest)) >>= fun taken => finish taken.1 taken.2 := by
  obtain ⟨inner, htext, hmembers⟩ := h.members_object rest
  rw [htext]
  show (members step inner.length true start inner >>= fun taken => finish taken.1 taken.2) = _
  rw [hmembers]

/-- A record is read from an object by its members and what is made of them at the end. -/
theorem record_answers {wanted : Wanted} {finish : β → Reader α} {places : Reader α}
    {outcome : Except Error α} (h : Collects step start parts (.ok state))
    (hfinish : (finish state).Settles outcome) :
    (record wanted step start finish places).Answers (Writer.object parts) outcome := by
  refine ⟨opens_object parts, ?_⟩
  intro rest _
  rw [h.record_append rest]
  exact hfinish rest

/-- A faulty member is reported and nothing is read behind it. -/
theorem record_stops {wanted : Wanted} {finish : β → Reader α} {places : Reader α} {error : Error}
    (h : Collects step start parts (.error error)) :
    (record wanted step start finish places).Answers (Writer.object parts) (.error error) := by
  refine ⟨opens_object parts, ?_⟩
  intro rest _
  rw [h.record_append rest]
  rfl

end VaultBatch.Json
