import VaultBatch.Proofs.Bytes.Hex
import VaultBatch.Proofs.Text.Decimal
import VaultBatch.Proofs.Token.Order

/-!
# What references in words tell apart

In words a reference is a label, a colon, an address of a fixed width and, for tokens that are not
fungible, their number behind a mark. The colon does not stand anywhere else, so all parts can be
told from the words (`Reference.display_eq_iff_parts`). What they do not tell is the number of a
fungible token, and nothing else (`Reference.display_eq_display_iff`).
-/

namespace VaultBatch

/-! ## The parts of the words -/

/-- Bytes are written in hexadecimal digits only. -/
theorem Hex.isDigit_of_mem_encode {bytes : List UInt8} {c : Char} (h : c ∈ encode bytes) :
    IsDigit c := by
  have hpairs : Pairs (encode bytes) bytes := decode_eq_ok_iff.1 (decode_encode bytes)
  exact (exists_pairs_iff.1 ⟨bytes, hpairs⟩).2 c h

/-- Numbers with the same digits are the same. -/
theorem Decimal.ofNat_injective : Function.Injective ofNat := by
  intro m n h
  rw [← ofDigitChars_ofNat m, h, ofDigitChars_ofNat]

namespace Address

/-- Addresses with the same digits are the same. -/
theorem hex_injective : Function.Injective hex := by
  intro a b h
  have hread := parse_hex a
  rw [h, parse_hex] at hread
  exact (Except.ok.inj hread).symm

/-- An address is written in 42 characters. -/
theorem length_hex (a : Address) : a.hex.toList.length = 42 := by
  simp [hex, Hex.encodeMarked, width]

/-- No colon stands in an address. -/
theorem colon_notMem_hex (a : Address) : ':' ∉ a.hex.toList := by
  intro h
  rw [hex, String.toList_ofList, Hex.encodeMarked] at h
  simp only [List.mem_cons, Char.reduceEq, false_or] at h
  exact absurd (Hex.isDigit_of_mem_encode h) (by decide)

end Address

namespace TokenKind

/-- No colon stands in the name of a standard. -/
theorem colon_notMem_name (kind : TokenKind) : ':' ∉ kind.name.toList := by
  cases kind <;> decide

/-- The name of a token standard is no name of a kind of account. -/
theorem name_ne_name (kind : TokenKind) (target : TargetKind) : kind.name ≠ target.name := by
  cases kind <;> cases target <;> decide

end TokenKind

namespace TargetKind

/-- No colon stands in the name of a kind. -/
theorem colon_notMem_name (kind : TargetKind) : ':' ∉ kind.name.toList := by
  cases kind <;> decide

/-- Kinds with the same name are the same. -/
theorem name_injective : Function.Injective name := by
  intro a b h
  exact mark_injective ofName?_name h

end TargetKind

/-- What stands behind the address of a token in words. -/
def Token.ending (token : Token) : List Char :=
  if token.kind = .erc20 then [] else '#' :: Decimal.ofNat token.id.value

namespace Reference

/-- What stands before the colon in words. -/
def label : Reference → String
  | .token t => t.kind.name
  | .target t => t.kind.name

/-- What stands behind the address in words. -/
def ending : Reference → List Char
  | .token t => t.ending
  | .target _ => []

/-- A reference is displayed as its label, a colon, its address and its ending. -/
theorem toList_display (r : Reference) :
    r.display.toList = r.label.toList ++ ':' :: (r.address.hex.toList ++ r.ending) := by
  cases r with
  | token t =>
      obtain ⟨kind, id, address⟩ := t
      cases kind <;> simp [display, Token.display, label, Reference.address, ending, Token.ending]
  | target t => simp [display, Target.display, label, address, ending]

/-- No colon stands in the label of a reference. -/
theorem colon_notMem_label (r : Reference) : ':' ∉ r.label.toList := by
  cases r with
  | token t => exact t.kind.colon_notMem_name
  | target t => exact t.kind.colon_notMem_name

/-- No colon stands behind the address of a reference. -/
theorem colon_notMem_ending (r : Reference) : ':' ∉ r.ending := by
  cases r with
  | token t =>
      rw [ending, Token.ending]
      split
      · exact List.not_mem_nil
      · intro h
        rcases List.mem_cons.1 h with h | h
        · cases h
        · exact absurd (Decimal.isDigit_of_mem_ofNat h) (by decide)
  | target t => exact List.not_mem_nil

/-- References are the same in words exactly if all parts of the words are. -/
theorem display_eq_iff_parts {r s : Reference} :
    r.display = s.display ↔ r.label = s.label ∧ r.address = s.address ∧ r.ending = s.ending := by
  have hcolon : ':' ∉ s.address.hex.toList ++ s.ending := by
    intro h
    rcases List.mem_append.1 h with h | h
    · exact s.address.colon_notMem_hex h
    · exact s.colon_notMem_ending h
  rw [← String.toList_inj, toList_display, toList_display]
  constructor
  · intro h
    -- there is no other colon in the second text, so the colons stand at the same place
    obtain ⟨hlabel, -, hrest⟩ :=
      (List.append_cons_inj_of_notMem s.colon_notMem_label hcolon).1 h.symm
    have hwidth : s.address.hex.toList.length = r.address.hex.toList.length := by
      rw [Address.length_hex, Address.length_hex]
    obtain ⟨haddress, hending⟩ := List.append_inj hrest hwidth
    exact ⟨(String.toList_inj.1 hlabel).symm,
      (Address.hex_injective (String.toList_inj.1 haddress)).symm, hending.symm⟩
  · intro h
    obtain ⟨hlabel, haddress, hending⟩ := h
    rw [hlabel, haddress, hending]

end Reference

/-! ## What is told apart -/

/-- Tokens of one standard end alike exactly if it is the fungible one or their numbers are the
same. -/
theorem Token.ending_eq_iff {token other : Token} (hkind : token.kind = other.kind) :
    token.ending = other.ending ↔ token.kind = .erc20 ∨ token.id = other.id := by
  rw [ending, ending, ← hkind]
  by_cases h : token.kind = .erc20
  · simp [h]
  · rw [if_neg h, if_neg h, List.cons.injEq, and_iff_right rfl, Decimal.ofNat_injective.eq_iff,
      or_iff_right h, TokenId.value_injective.eq_iff]

/-- An account is of its kind at its address. -/
theorem Target.ofKind_kind (target : Target) : .ofKind target.kind target.address = target := by
  cases target <;> rfl

namespace Reference

/-- The references are the same, or they are fungible tokens at the same address. -/
inductive ShownAlike : Reference → Reference → Prop where
  | refl (reference : Reference) : ShownAlike reference reference
  | fungible (id other : TokenId) (address : Address) :
    ShownAlike (.token ⟨.erc20, id, address⟩) (.token ⟨.erc20, other, address⟩)

/-- References whose words have the same parts are shown alike. -/
theorem shownAlike_of_parts {r s : Reference} (hlabel : r.label = s.label)
    (haddress : r.address = s.address) (hending : r.ending = s.ending) : r.ShownAlike s := by
  cases r with
  | token token =>
      cases s with
      | token other =>
          have hkind : token.kind = other.kind := TokenKind.name_injective hlabel
          have hid := (Token.ending_eq_iff hkind).1 hending
          obtain ⟨kind, id, place⟩ := token
          obtain ⟨_, otherId, _⟩ := other
          cases hkind
          cases haddress
          -- a fungible token is displayed without its number
          rcases hid with hfungible | hsame
          · cases hfungible
            exact .fungible id otherId place
          · cases hsame
            exact .refl _
      | target target => exact absurd hlabel (token.kind.name_ne_name target.kind)
  | target target =>
      cases s with
      | token token => exact absurd hlabel.symm (token.kind.name_ne_name target.kind)
      | target other =>
          have hkind : target.kind = other.kind := TargetKind.name_injective hlabel
          have hplace : target.address = other.address := haddress
          rw [← target.ofKind_kind, hkind, hplace, other.ofKind_kind]
          exact .refl _

/-- References are displayed the same exactly if they are shown alike. -/
theorem display_eq_iff_shownAlike {r s : Reference} : r.display = s.display ↔ r.ShownAlike s := by
  constructor
  · intro h
    obtain ⟨hlabel, haddress, hending⟩ := display_eq_iff_parts.1 h
    exact shownAlike_of_parts hlabel haddress hending
  · intro h
    cases h with
    | refl => rfl
    | fungible => rfl

/-- References are the same in words exactly if they are the same, or fungible tokens at the same
address whatever their numbers. No token has the words of a pool or a gauge, and a token that is
not fungible is the only reference with its words. -/
theorem display_eq_display_iff :
    (∀ r s : Reference, r.display = s.display ↔ r.ShownAlike s) ∧
    (∀ (token : Token) (target : Target), token.display ≠ target.display) ∧
    ∀ token : Token, token.kind ≠ .erc20 →
      ∀ r : Reference, r.display = token.display ↔ r = .token token := by
  refine ⟨fun _ _ => display_eq_iff_shownAlike, ?_, ?_⟩
  · intro token target h
    have halike : ShownAlike (.token token) (.target target) := display_eq_iff_shownAlike.1 h
    cases halike
  · intro token hkind r
    constructor
    · intro h
      have halike : r.ShownAlike (.token token) := display_eq_iff_shownAlike.1 h
      cases halike with
      | refl => rfl
      | fungible => exact absurd rfl hkind
    · intro h
      rw [h]
      rfl

/-- A single token is told from all other references, but fungible tokens of two numbers are not
told from each other. -/
theorem display_eq_display_zero :
    (⟨.erc20, .zero, .zero⟩ : Token).display =
        (⟨.erc20, ⟨7, by decide⟩, .zero⟩ : Token).display ∧
      TokenKind.erc721 ≠ .erc20 ∧
      ∀ r : Reference, r.display = (⟨.erc721, ⟨7, by decide⟩, .zero⟩ : Token).display ↔
        r = .token ⟨.erc721, ⟨7, by decide⟩, .zero⟩ := by
  obtain ⟨hall, -, hsingle⟩ := display_eq_display_iff
  have hkind : TokenKind.erc721 ≠ .erc20 := by decide
  exact ⟨(hall (.token _) (.token _)).2 (.fungible _ _ _), hkind, hsingle _ hkind⟩

end Reference
end VaultBatch
