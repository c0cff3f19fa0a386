import VaultBatch.Proofs.Json.Decoding

/-!
# Objects are read from all their spellings

The members of an object are read in the order in which they stand, each onto what the ones before
it have made. `Gathers` follows them for the members of one object and gives what is made of them,
if none of them is refused; `record_decodes` says what is read from the object.
-/

namespace VaultBatch.Json

variable {α β γ : Type}

open Reader

/-! ## The value of a member -/

/-- A value behind a colon. -/
def SpellsBehindColon (start : List Char) (value : Value) (rest : List Char) : Prop :=
  ∃ after, dropBlanks start = ':' :: after ∧ Spells after value rest

/-- The value of a member is read after the colon. -/
theorem member_decodes {read : Reader α} {value : Value} {result : Option α}
    (h : read.Decodes (Spells · value ·) result) :
    (member read).Decodes (SpellsBehindColon · value ·) result := by
  rintro start rest ⟨inner, hcolon, hspells⟩ hrest found after hafter
  rw [← h hspells hrest found after hafter]
  unfold member
  rw [bind_run_eq_ok_iff]
  simp only [colon_eq_ok_iff, hcolon, List.cons.injEq, true_and]
  constructor
  · rintro ⟨_, _, rfl, hread⟩
    exact hread
  · intro hread
    exact ⟨(), inner, rfl, hread⟩

/-- A member may be read once. -/
theorem once_concludes (slot : Option α) (name : String) :
    (once slot name).Concludes (if slot.isSome then none else some ()) := by
  cases slot with
  | some value => exact concludes_fail _
  | none => exact concludes_pure ()

/-- A member is put into its place if it has not stood before. -/
theorem once_decodes {slot : Option γ} {name : String} {put : α → β} {read : Reader α}
    {value : Value} {result : Option α} (h : read.Decodes (Spells · value ·) result) :
    (do
      once slot name
      return put (← member read) : Reader β).Decodes (SpellsBehindColon · value ·)
        (if slot.isSome then none else result.map put) := by
  have hput := (once_concludes slot name).decodes fun _ =>
    (member_decodes h).conclude fun found => concludes_pure (put found)
  rw [Option.map_eq_bind]
  cases slot <;> exact hput

/-! ## All members -/

/-- A name and its value are read by the step for the name, at the first place and behind a
comma. -/
theorem SpellsMember.members_eq {inner middle : List Char} {member : String × Value}
    (h : SpellsMember inner member middle) (step : β → String → Reader β) (count : Nat)
    (state : β) :
    ∃ between, SpellsBehindColon between member.2 middle ∧
      members step (count + 1) true state inner =
        (step state member.1 between >>= fun taken => members step count false taken.1 taken.2) ∧
      ∀ start, dropBlanks start = ',' :: inner →
        members step (count + 1) false state start =
          (step state member.1 between >>= fun taken =>
            members step count false taken.1 taken.2) := by
  cases h with
  | @member _ inner' middle' _ _ name value hquote hname hcolon hvalue =>
      have hread : (orMalformed (Text.read inner') >>= fun taken =>
          step state (String.ofList taken.1) taken.2 >>= fun taken =>
            members step count false taken.1 taken.2) =
          (step state name middle' >>= fun taken => members step count false taken.1 taken.2) := by
        rw [hname.read_eq]
        show (step state (String.ofList name.toList) middle' >>= fun taken => _) = _
        rw [String.ofList_toList]
      refine ⟨middle', ⟨_, hcolon, hvalue⟩, ?_, ?_⟩
      · simp only [members, hquote]
        split
        · next hclose => cases hclose
        · next hcomma => cases hcomma
        · rw [dropBlanks_cons_of_eq hquote]
          exact hread
      · intro start hstart
        simp only [members, hquote, hstart]
        exact hread

/-- Members are only read up to where a value ends. -/
theorem delimited_of_members {step : β → String → Reader β} {count : Nat} {state : β}
    {start : List Char} {taken : β × List Char}
    (h : members step count false state start = .ok taken) : Delimited start := by
  cases count with
  | zero => cases h
  | succ count =>
      simp only [members] at h
      refine delimited_of_dropBlanks ?_
      split at h
      · next heq =>
        rw [heq]
        rintro c ⟨⟩
        exact .inr (.inr rfl)
      · next heq =>
        rw [heq]
        rintro c ⟨⟩
        exact .inl rfl
      · cases h

/-- The members are read onto a state, one after the other, if none of them is refused. What a
member puts into the state is read from the spellings of its value. -/
inductive Gathers (step : β → String → Reader β) :
    β → List (String × Value) → Option β → Prop where
  | done (state : β) : Gathers step state [] (some state)
  | member {γ : Type} {state : β} {name : String} {value : Value} {rest : List (String × Value)}
    {found : Option γ} {put : γ → β} {final : γ → Option β}
    (h : (step state name).Decodes (SpellsBehindColon · value ·) (found.map put))
    (hrest : ∀ x, Gathers step (put x) rest (final x)) :
    Gathers step state ((name, value) :: rest) (found.bind final)

variable {step : β → String → Reader β} {start : β}

/-- A member is read, and then the members behind it. -/
theorem step_eq_ok_iff {state : β} {name : String} {value : Value} {found : Option γ} {put : γ → β}
    {next : γ → Option β} {count : Nat} {between middle rest after : List Char} {final : β}
    (hstep : (step state name).Decodes (SpellsBehindColon · value ·) (found.map put))
    (hbetween : SpellsBehindColon between value middle) (hmiddle : Delimited middle)
    (hnext : ∀ x, members step count false (put x) middle = .ok (final, after) ↔
      next x = some final ∧ after = rest) :
    (step state name between >>= fun taken => members step count false taken.1 taken.2) =
        .ok (final, after) ↔ found.bind next = some final ∧ after = rest := by
  simp only [bind_eq_ok_iff, Prod.exists, Option.bind_eq_some_iff]
  constructor
  · rintro ⟨other, inner, hread, hmembers⟩
    obtain ⟨hput, rfl⟩ := (hstep hbetween hmiddle _ _ (delimited_of_members hmembers)).1 hread
    obtain ⟨x, hx, rfl⟩ := Option.map_eq_some_iff.1 hput
    obtain ⟨hfinal, hafter⟩ := (hnext x).1 hmembers
    exact ⟨⟨x, hx, hfinal⟩, hafter⟩
  · rintro ⟨⟨x, hx, hfinal⟩, hafter⟩
    have hput : found.map put = some (put x) := by rw [hx]; rfl
    exact ⟨put x, middle, (hstep hbetween hmiddle _ _ hmiddle).2 ⟨hput, rfl⟩,
      (hnext x).2 ⟨hfinal, hafter⟩⟩

/-- The further members of an object are read exactly as they are gathered. -/
theorem Gathers.members_following {state : β} {parts : List (String × Value)}
    {gathered : Option β} (h : Gathers step state parts gathered) {count : Nat}
    {text rest after : List Char} {final : β} (hspells : SpellsMembers text parts rest)
    (hcount : parts.length < count) :
    members step count false state text = .ok (final, after) ↔
      gathered = some final ∧ after = rest := by
  induction h generalizing count text with
  | done state =>
      obtain ⟨count, rfl⟩ := Nat.exists_eq_add_one_of_ne_zero (Nat.ne_zero_of_lt hcount)
      cases hspells with
      | close heq => simp [members, heq, eq_comm]
  | member h _ ih =>
      obtain ⟨count, rfl⟩ := Nat.exists_eq_add_one_of_ne_zero (Nat.ne_zero_of_lt hcount)
      cases hspells with
      | member hcomma hmember hmembers =>
          obtain ⟨between, hbetween, -, hcommas⟩ := hmember.members_eq step count _
          rw [hcommas text hcomma]
          refine step_eq_ok_iff h hbetween hmembers.delimited ?_
          exact fun x => ih x hmembers (Nat.lt_of_succ_lt_succ hcount)

/-- Where it is known what each member makes of a state, the members are gathered in a fold. -/
theorem gathers_foldlM {take : β → String × Value → Option β} {parts : List (String × Value)}
    (h : ∀ state, ∀ part ∈ parts,
      (step state part.1).Decodes (SpellsBehindColon · part.2 ·) (take state part))
    (state : β) : Gathers step state parts (parts.foldlM take state) := by
  induction parts generalizing state with
  | nil => exact .done state
  | cons part parts ih =>
      have hpart : (step state part.1).Decodes (SpellsBehindColon · part.2 ·)
          ((take state part).map id) := by
        rw [Option.map_id]
        exact h state part List.mem_cons_self
      rw [List.foldlM_cons]
      exact .member hpart fun next => ih (fun state part hpart => h state part (.tail _ hpart)) next

/-- What is read from all members of an object that has been opened. -/
theorem Gathers.members_object {parts : List (String × Value)} {gathered : Option β}
    (h : Gathers step start parts gathered) {text rest : List Char}
    (hspells : Spells text (.object parts) rest) :
    ∃ inner, dropBlanks text = '\x7b' :: inner ∧ ∀ final after,
      members step inner.length true start inner = .ok (final, after) ↔
        gathered = some final ∧ after = rest := by
  cases hspells with
  | @emptyObject _ inner _ heq hclose =>
      refine ⟨inner, heq, ?_⟩
      intro final after
      have hpos := Nat.zero_lt_of_lt (length_lt_of_dropBlanks hclose)
      obtain ⟨count, hcount⟩ := Nat.exists_eq_add_one_of_ne_zero (Nat.ne_of_gt hpos)
      cases h with
      | done => simp [hcount, members, hclose, eq_comm]
  | @object _ inner middle _ _ _ heq hmember hmembers =>
      refine ⟨inner, heq, ?_⟩
      intro final after
      have hlt := hmember.length_lt
      have hrest := hmembers.length_add_lt
      obtain ⟨count, hcount⟩ := Nat.exists_eq_add_one_of_ne_zero (Nat.ne_zero_of_lt hlt)
      cases h with
      | member h hnext =>
          obtain ⟨between, hbetween, hfirst, -⟩ := hmember.members_eq step count start
          rw [hcount, hfirst]
          refine step_eq_ok_iff h hbetween hmembers.delimited ?_
          exact fun x => (hnext x).members_following hmembers (by omega)

/-- A member that is required is the one that has been read. -/
theorem required_concludes (slot : Option α) (name : String) :
    (required slot name).Concludes slot := by
  cases slot with
  | some value => exact concludes_pure value
  | none => exact concludes_fail _

/-- A record is read from the members of an object and what is made of them at the end. -/
theorem record_decodes {wanted : Wanted} {parts : List (String × Value)} {gathered : Option β}
    {finish : β → Reader α} {final : β → Option α} {places : Reader α}
    (h : Gathers step start parts gathered)
    (hfinish : ∀ state, (finish state).Concludes (final state)) :
    (record wanted step start finish places).Decodes (Spells · (.object parts) ·)
      (gathered.bind final) := by
  intro text rest hspells hrest found after hafter
  obtain ⟨inner, heq, hmembers⟩ := h.members_object hspells
  have hdecodes : (members step inner.length true start).Decodes
      (fun first last => first = inner ∧ last = rest) gathered := by
    rintro _ _ ⟨rfl, rfl⟩ - state middle -
    exact hmembers state middle
  rw [← hdecodes.conclude hfinish ⟨rfl, rfl⟩ hrest found after hafter]
  unfold record
  rw [heq]
  rfl

end VaultBatch.Json
