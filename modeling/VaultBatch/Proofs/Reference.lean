import VaultBatch.Proofs.Descriptor

/-!
# References with the same descriptor

Tokens and targets share the first byte of a descriptor. `Reference.pack_eq_pack_iff` says which
references this confuses: a pool with the fungible token at its address that has the number zero, a
gauge with the single token at its address that has the number zero, and no others.
-/

namespace VaultBatch

/-- Descriptors are the same exactly if their fields are. -/
theorem Descriptor.ofFields_inj {first second : UInt8} {id otherId : TokenId}
    {address otherAddress : Address} :
    ofFields first id address = ofFields second otherId otherAddress ↔
      first = second ∧ id = otherId ∧ address = otherAddress := by
  constructor
  · intro h
    have hfirst := congrArg discriminant h
    have hid := congrArg Descriptor.id h
    have haddress := congrArg Descriptor.address h
    simp only [discriminant_ofFields, id_ofFields, address_ofFields] at hfirst hid haddress
    exact ⟨hfirst, hid, haddress⟩
  · rintro ⟨rfl, rfl, rfl⟩
    rfl

/-- A token and a target that cannot be told apart by their descriptors. -/
inductive Token.Collides : Token → Target → Prop where
  | pool (address : Address) : Collides ⟨.erc20, .zero, address⟩ (.pool address)
  | gauge (address : Address) : Collides ⟨.erc721, .zero, address⟩ (.gauge address)

/-- A token is packed like a pool or gauge exactly if the two collide. -/
theorem Token.pack_eq_pack_iff {token : Token} {target : Target} :
    token.pack = target.pack ↔ token.Collides target := by
  obtain ⟨kind, id, address⟩ := token
  constructor
  · intro h
    cases target with
    | pool other =>
        obtain ⟨hkind, rfl, rfl⟩ := Descriptor.ofFields_inj.1 h
        obtain rfl : kind = .erc20 := TokenKind.byte_injective hkind
        exact .pool address
    | gauge other =>
        obtain ⟨hkind, rfl, rfl⟩ := Descriptor.ofFields_inj.1 h
        obtain rfl : kind = .erc721 := TokenKind.byte_injective hkind
        exact .gauge address
  · intro h
    cases h with
    | pool => rfl
    | gauge => rfl

/-- Targets with the same descriptor are the same. -/
theorem Target.pack_injective : Function.Injective Target.pack := by
  intro a b h
  have hread := congrArg Descriptor.target h
  rw [Descriptor.target_pack, Descriptor.target_pack] at hread
  exact Except.ok.inj hread

namespace Reference

/-- The references are the same, or they are a token and a target that collide. -/
inductive Alike : Reference → Reference → Prop where
  | refl (reference : Reference) : Alike reference reference
  | tokenTarget {token : Token} {target : Target} (h : token.Collides target) :
    Alike (.token token) (.target target)
  | targetToken {token : Token} {target : Target} (h : token.Collides target) :
    Alike (.target target) (.token token)

/-- References have the same descriptor exactly if they are the same or collide. -/
theorem pack_eq_pack_iff {reference other : Reference} :
    reference.pack = other.pack ↔ reference.Alike other := by
  constructor
  · intro h
    cases reference with
    | token token =>
        cases other with
        | token other =>
            rw [Token.pack_injective h]
            exact .refl _
        | target target => exact .tokenTarget (Token.pack_eq_pack_iff.1 h)
    | target target =>
        cases other with
        | token token => exact .targetToken (Token.pack_eq_pack_iff.1 h.symm)
        | target other =>
            rw [Target.pack_injective h]
            exact .refl _
  · intro h
    cases h with
    | refl => rfl
    | tokenTarget h => exact Token.pack_eq_pack_iff.2 h
    | targetToken h => exact (Token.pack_eq_pack_iff.2 h).symm

end Reference
end VaultBatch
