import Mathlib.Data.Int.ModEq
import VaultBatch.Amount

/-!
# Amounts from their direction and magnitude

A magnitude that is received is wrapped twice, and the two cancel out (`Amount.wrap_neg_wrap`), so
that the magnitude of the smallest amount is received although it is too large to be paid.
`Amount.pay_receive_cover` says that this gives each amount from its own magnitude in its own
direction and from no other, the amount of nothing alone from both directions.
-/

namespace VaultBatch

/-- Integers that differ by multiples of how many byte strings of the width there are are written
the same. -/
theorem TwosComplement.encode_congr {width : Nat} {value other : Int}
    (h : value ≡ other [ZMOD Bytes.count width]) : encode width value = encode width other := by
  rw [encode, encode, h]

/-- Writing an integer loses only multiples of how many byte strings of the width there are. -/
theorem TwosComplement.decode_encode_modEq (width : Nat) (value : Int) :
    decode (encode width value) ≡ value [ZMOD Bytes.count width] := by
  have hpos : (0 : Int) < (Bytes.count width : Nat) := Int.natCast_pos.2 (Bytes.count_pos width)
  have hlow := Int.emod_nonneg value (Int.ne_of_gt hpos)
  have hhigh := Int.emod_lt_of_pos value hpos
  have hdecode : (BigEndian.decode (encode width value) : Int) =
      value % (Bytes.count width : Nat) := by
    rw [encode, BigEndian.decode_encode (by omega)]
    omega
  have hmod : value % (Bytes.count width : Nat) ≡ value [ZMOD Bytes.count width] :=
    Int.mod_modEq _ _
  unfold decode
  simp only [hdecode]
  split
  · exact hmod
  · exact (Int.sub_modulus_modEq_iff).2 hmod

namespace Amount

variable {magnitude : Nat} {amount : Amount} {error : EncodingError}

/-! ## Wrapping -/

/-- Wrapping keeps an integer up to whole turns around the width. -/
theorem value_wrap_modEq (value : Int) : (wrap value).value ≡ value [ZMOD Bytes.count 16] := by
  rw [wrap, value_ofBytes]
  exact TwosComplement.decode_encode_modEq 16 value

/-- Integers that differ by multiples of how many amounts there are wrap to the same amount. -/
theorem wrap_congr {value other : Int} (h : value ≡ other [ZMOD Bytes.count 16]) :
    wrap value = wrap other :=
  congrArg ofBytes (TwosComplement.encode_congr h)

/-- The opposite may be taken before wrapping as well as after it. -/
theorem wrap_neg_wrap (value : Int) : wrap (-(wrap value).value) = wrap (-value) :=
  wrap_congr (value_wrap_modEq value).neg

/-! ## Paying and receiving -/

/-- Paying gives exactly the amount whose value is the size. -/
theorem pay_eq_ok_iff : pay magnitude = .ok amount ↔ amount.value = magnitude := by
  rw [← ofInt?_eq_some_iff, pay]
  cases ofInt? magnitude <;> simp

/-- Paying is refused exactly if the size is above the largest amount. -/
theorem pay_eq_error_iff :
    pay magnitude = .error error ↔
      maxValue < magnitude ∧ error = .overflow (String.ofList (Decimal.ofNat magnitude)) := by
  have hnone : ofInt? magnitude = none ↔ maxValue < magnitude := by
    rw [ofInt?_eq_none_iff]
    unfold minValue
    omega
  rw [← hnone, pay]
  cases ofInt? magnitude <;> simp [eq_comm]

/-- Receiving gives exactly the amount whose value is the size taken away from zero. -/
theorem receive_eq_ok_iff : receive magnitude = .ok amount ↔ amount.value = -(magnitude : Int) := by
  have hlow := amount.le_value
  unfold receive
  split
  · next hlarge =>
    simp only [minValue] at hlarge
    exact iff_of_false (by simp) (by omega)
  · next hsmall =>
    have hfits : minValue ≤ -(magnitude : Int) ∧ -(magnitude : Int) ≤ maxValue := by
      unfold minValue maxValue at *
      omega
    rw [wrap_neg_wrap, Except.ok.injEq]
    constructor
    · rintro rfl
      exact value_wrap hfits
    · exact fun h => ext ((value_wrap hfits).trans h.symm)

/-- Receiving is refused exactly if the size taken away from zero is below the least amount. -/
theorem receive_eq_error_iff :
    receive magnitude = .error error ↔ -(magnitude : Int) < minValue ∧
      error = .overflow ("-" ++ String.ofList (Decimal.ofNat magnitude)) := by
  have hlarge : minValue.natAbs < magnitude ↔ -(magnitude : Int) < minValue := by
    unfold minValue
    omega
  rw [← hlarge, receive]
  split <;> simp_all [eq_comm]

/-! ## Directions -/

/-- The user pays exactly the positive amounts. -/
theorem direction_eq_userPays_iff : amount.direction = .userPays ↔ 0 < amount.value := by
  unfold direction
  split
  · next hpays => exact iff_of_true rfl hpays
  · next hpays =>
    refine iff_of_false ?_ hpays
    split <;> simp

/-- The user receives exactly the negative amounts. -/
theorem direction_eq_userReceives_iff : amount.direction = .userReceives ↔ amount.value < 0 := by
  unfold direction
  split
  · exact iff_of_false (by simp) (by omega)
  · split
    · next hreceives => exact iff_of_true rfl hreceives
    · next hreceives => exact iff_of_false (by simp) hreceives

/-- The amount of nothing is the one that moves in no direction. -/
theorem direction_eq_none_iff : amount.direction = .none ↔ amount = zero := by
  have hzero : amount = zero ↔ amount.value = 0 := ⟨congrArg Amount.value, fun h => ext h⟩
  rw [hzero]
  unfold direction
  split
  · exact iff_of_false (by simp) (by omega)
  · split
    · exact iff_of_false (by simp) (by omega)
    · exact iff_of_true rfl (by omega)

/-- An amount is a size exactly if it is of that size and the user does not receive it. -/
theorem value_eq_magnitude_iff :
    amount.value = magnitude ↔
      amount.direction ≠ .userReceives ∧ amount.magnitude = magnitude := by
  rw [Ne, direction_eq_userReceives_iff, Amount.magnitude]
  omega

/-- An amount is a size below zero exactly if it is of that size and the user does not pay it. -/
theorem value_eq_neg_magnitude_iff :
    amount.value = -(magnitude : Int) ↔
      amount.direction ≠ .userPays ∧ amount.magnitude = magnitude := by
  rw [Ne, direction_eq_userPays_iff, Amount.magnitude]
  omega

/-- An amount is paid for its own magnitude, unless it is received. -/
theorem pay_eq_ok_iff_direction :
    pay magnitude = .ok amount ↔
      amount.direction ≠ .userReceives ∧ amount.magnitude = magnitude :=
  pay_eq_ok_iff.trans value_eq_magnitude_iff

/-- An amount is received for its own magnitude, unless it is paid. -/
theorem receive_eq_ok_iff_direction :
    receive magnitude = .ok amount ↔
      amount.direction ≠ .userPays ∧ amount.magnitude = magnitude :=
  receive_eq_ok_iff.trans value_eq_neg_magnitude_iff

/-- Direction and magnitude tell amounts apart. -/
theorem direction_magnitude_inj {other : Amount} :
    amount.direction = other.direction ∧ amount.magnitude = other.magnitude ↔ amount = other := by
  constructor
  · rintro ⟨hdirection, hmagnitude⟩
    -- both amounts are what this magnitude gives in this direction
    by_cases hreceives : amount.direction = .userReceives
    · have hamount : receive amount.magnitude = .ok amount :=
        receive_eq_ok_iff_direction.2 ⟨by simp [hreceives], rfl⟩
      have hother : receive amount.magnitude = .ok other :=
        receive_eq_ok_iff_direction.2 ⟨by simp [← hdirection, hreceives], hmagnitude.symm⟩
      exact Except.ok.inj (hamount.symm.trans hother)
    · have hamount : pay amount.magnitude = .ok amount :=
        pay_eq_ok_iff_direction.2 ⟨hreceives, rfl⟩
      have hother : pay amount.magnitude = .ok other :=
        pay_eq_ok_iff_direction.2 ⟨hdirection ▸ hreceives, hmagnitude.symm⟩
      exact Except.ok.inj (hamount.symm.trans hother)
  · rintro rfl
    exact ⟨rfl, rfl⟩

/-- A magnitude is paid up to the largest amount and received up to one more, as its value or the
opposite of it, and else it overflows. Each amount is what its magnitude gives in its direction, and
nothing else gives it: what is paid are the amounts that are not received, each for its own
magnitude, and the other way around. So direction and magnitude tell amounts apart. -/
theorem pay_receive_cover :
    (∀ n : Nat,
      (∀ amount, pay n = .ok amount ↔ n ≤ 2 ^ 127 - 1 ∧ amount.value = n) ∧
      (∀ error, pay n = .error error ↔
        2 ^ 127 - 1 < n ∧ error = .overflow (String.ofList (Decimal.ofNat n))) ∧
      (∀ amount, receive n = .ok amount ↔ n ≤ 2 ^ 127 ∧ amount.value = -(n : Int)) ∧
      ∀ error, receive n = .error error ↔
        2 ^ 127 < n ∧ error = .overflow ("-" ++ String.ofList (Decimal.ofNat n))) ∧
    ∀ amount : Amount,
      (match amount.direction with
        | .userPays => pay amount.magnitude = .ok amount
        | .userReceives => receive amount.magnitude = .ok amount
        | .none => amount = zero) ∧
      (∀ n, pay n = .ok amount ↔ amount.direction ≠ .userReceives ∧ amount.magnitude = n) ∧
      (∀ n, receive n = .ok amount ↔ amount.direction ≠ .userPays ∧ amount.magnitude = n) ∧
      ∀ other : Amount, amount.direction = other.direction ∧ amount.magnitude = other.magnitude ↔
        amount = other := by
  refine ⟨fun n => ⟨?_, ?_, ?_, ?_⟩, fun amount => ⟨?_, fun _ => pay_eq_ok_iff_direction,
    fun _ => receive_eq_ok_iff_direction, fun _ => direction_magnitude_inj⟩⟩
  · intro amount
    have hhigh := amount.value_le
    rw [pay_eq_ok_iff]
    omega
  · intro error
    have hlarge : maxValue < n ↔ 2 ^ 127 - 1 < n := by
      unfold maxValue
      omega
    rw [pay_eq_error_iff, hlarge]
  · intro amount
    have hlow := amount.le_value
    rw [receive_eq_ok_iff]
    omega
  · intro error
    have hlarge : -(n : Int) < minValue ↔ 2 ^ 127 < n := by
      unfold minValue
      omega
    rw [receive_eq_error_iff, hlarge]
  · cases hdirection : amount.direction with
    | userPays => exact pay_eq_ok_iff_direction.2 ⟨by simp [hdirection], rfl⟩
    | userReceives => exact receive_eq_ok_iff_direction.2 ⟨by simp [hdirection], rfl⟩
    | none => exact direction_eq_none_iff.1 hdirection

/-- The smallest amount is received, not paid. -/
example :
    pay (2 ^ 127) = .error (.overflow "170141183460469231731687303715884105728") ∧
      receive (2 ^ 127) = .ok ⟨minValue, by decide, by decide⟩ := by
  decide +kernel

end Amount
end VaultBatch
