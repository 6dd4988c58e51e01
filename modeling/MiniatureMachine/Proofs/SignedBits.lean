import Mathlib.Data.Int.ModEq
import Mathlib.Algebra.Order.Group.Unbundled.Int
import MiniatureMachine.Proofs.Bits

/-!
Contract: digit lists as signed numbers.

Owns:
- the signed numbers of a width, and that no two of them have the same digits;
- the signed value of a digit list: its leading digit is the only one with a negative weight;
- that the digits of a signed number and the signed value of a digit list undo each other.

A signed value is told by two facts: it is in the range of the width, and it has the residue of
the unsigned value. The range holds each residue once.
-/

namespace MiniatureMachine.Bits

def InSignedRange (width : Nat) (number : Int) : Prop :=
  -2 ^ (width - 1) ≤ number ∧ number ≤ 2 ^ (width - 1) - 1

variable {digits : List Bool} {width : Nat} {number other : Int}

/-! ## The signed range -/

theorem inSignedRange_iff_signedRange :
    InSignedRange width number ↔
      (signedRange width).1 ≤ number ∧ number ≤ (signedRange width).2 := by
  rw [signedRange, capacity_eq, Nat.cast_pow]
  rfl

/-- The ends of the range belong to it. -/
theorem inSignedRange_ends (width : Nat) :
    InSignedRange width (signedRange width).1 ∧ InSignedRange width (signedRange width).2 := by
  have positive := capacity_pos (width - 1)
  rw [inSignedRange_iff_signedRange, inSignedRange_iff_signedRange, signedRange]
  dsimp only
  omega

theorem two_pow_eq_double (positive : 0 < width) : (2 : Int) ^ width = 2 * 2 ^ (width - 1) := by
  obtain ⟨width, rfl⟩ := Nat.exists_eq_succ_of_ne_zero (Nat.ne_of_gt positive)
  exact Int.pow_succ' 2 width

theorem InSignedRange.mono {wider : Nat} (inRange : InSignedRange width number)
    (wide : width ≤ wider) : InSignedRange wider number := by
  have grown : (2 : Int) ^ (width - 1) ≤ 2 ^ (wider - 1) := by
    exact_mod_cast Nat.pow_le_pow_right (show 0 < 2 by decide) (Nat.sub_le_sub_right wide 1)
  unfold InSignedRange at *
  omega

/-- No two signed numbers of a width have the same digits. -/
theorem InSignedRange.eq_of_modEq (positive : 0 < width) (inRange : InSignedRange width number)
    (inRangeOther : InSignedRange width other) (same : number ≡ other [ZMOD 2 ^ width]) :
    number = other := by
  have doubled := two_pow_eq_double positive
  have near : |other - number| < 2 ^ width := by
    unfold InSignedRange at *
    rw [abs_lt]
    omega
  have equal := Int.eq_zero_of_abs_lt_dvd same.dvd near
  omega

/-! ## Signed values -/

theorem natCast_value_lt (digits : List Bool) : (value digits : Int) < 2 ^ digits.length := by
  exact_mod_cast value_lt digits

/-- The leading digit counts against the others. -/
theorem signedValue_cons (digit : Bool) (rest : List Bool) :
    signedValue (digit :: rest) = (value rest : Int) - digit.toNat * 2 ^ rest.length := by
  rw [signedValue, List.head?_cons, capacity_eq, value_cons, List.length_cons, Nat.pow_succ]
  cases digit with
  | false => simp
  | true =>
      rw [if_pos rfl, Bool.toNat_true]
      push_cast
      omega

theorem inSignedRange_signedValue (nonempty : digits ≠ []) :
    InSignedRange digits.length (signedValue digits) := by
  obtain ⟨digit, rest, rfl⟩ := List.exists_cons_of_ne_nil nonempty
  have below := natCast_value_lt rest
  rw [signedValue_cons, InSignedRange, List.length_cons, Nat.add_sub_cancel]
  cases digit with
  | false =>
      rw [Bool.toNat_false, Nat.cast_zero, Int.zero_mul]
      omega
  | true =>
      rw [Bool.toNat_true, Nat.cast_one, Int.one_mul]
      omega

/-- The sign changes the value by a multiple of the capacity. -/
theorem signedValue_modEq (digits : List Bool) :
    signedValue digits ≡ value digits [ZMOD 2 ^ digits.length] := by
  rw [signedValue, capacity_eq, Nat.cast_pow]
  split
  · exact Int.sub_modulus_modEq_iff.mpr rfl
  · exact rfl

/-- The signed value is the signed number of the width with the residue of the value. -/
theorem signedValue_eq_iff (nonempty : digits ≠ []) :
    signedValue digits = number ↔
      InSignedRange digits.length number ∧ number ≡ value digits [ZMOD 2 ^ digits.length] := by
  constructor
  · rintro rfl
    exact ⟨inSignedRange_signedValue nonempty, signedValue_modEq digits⟩
  · rintro ⟨inRange, same⟩
    have positive := List.length_pos_iff.mpr nonempty
    exact (inSignedRange_signedValue nonempty).eq_of_modEq positive inRange
      ((signedValue_modEq digits).trans same.symm)

/-- Repeating the leading digit does not change the signed value. -/
theorem signedValue_replicate_append (count : Nat) (digit : Bool) (rest : List Bool) :
    signedValue (List.replicate count digit ++ digit :: rest) = signedValue (digit :: rest) := by
  induction count with
  | zero => rfl
  | succ count inductionHypothesis =>
      obtain ⟨others, front⟩ : ∃ others, List.replicate count digit ++ digit :: rest =
          digit :: others := by
        cases count with
        | zero => exact ⟨rest, rfl⟩
        | succ count => exact ⟨_, rfl⟩
      rw [← inductionHypothesis, List.replicate_succ, List.cons_append, front, signedValue_cons,
        signedValue_cons, value_cons, List.length_cons, Int.pow_succ]
      push_cast
      cases digit with
      | false => simp
      | true =>
          simp only [Bool.toNat_true]
          omega

/-! ## Digits of signed numbers -/

@[simp] theorem length_ofInt (width : Nat) (number : Int) : (ofInt width number).length = width :=
  length_ofNat _ _

theorem value_ofInt (width : Nat) (number : Int) :
    (value (ofInt width number) : Int) = number % 2 ^ width := by
  have positive : (0 : Int) < 2 ^ width := Int.pow_pos (by decide)
  have nonneg := Int.emod_nonneg number (Int.ne_of_gt positive)
  have below := Int.emod_lt_of_pos number positive
  rw [ofInt, value_ofNat, capacity_eq, Nat.cast_pow, Nat.cast_ofNat]
  push_cast
  rw [Int.toNat_of_nonneg nonneg, Int.emod_emod]

theorem signedValue_ofInt (positive : 0 < width) (inRange : InSignedRange width number) :
    signedValue (ofInt width number) = number := by
  have nonempty : ofInt width number ≠ [] :=
    List.ne_nil_of_length_pos (positive.trans_eq (length_ofInt width number).symm)
  rw [signedValue_eq_iff nonempty, length_ofInt, value_ofInt]
  exact ⟨inRange, (Int.mod_modEq number _).symm⟩

/-- A digit list is told by its length and the residue of its value. -/
theorem eq_ofInt_iff : digits = ofInt width number ↔
    digits.length = width ∧ number ≡ value digits [ZMOD 2 ^ width] := by
  constructor
  · rintro rfl
    rw [value_ofInt]
    exact ⟨length_ofInt width number, (Int.mod_modEq number _).symm⟩
  · rintro ⟨rfl, same⟩
    have residue : number % 2 ^ digits.length = value digits := by
      rw [same, Int.emod_eq_of_lt (Int.natCast_nonneg _) (natCast_value_lt digits)]
    rw [ofInt, capacity_eq, Nat.cast_pow, Nat.cast_ofNat, residue, Int.toNat_natCast, ofNat_value]

theorem ofInt_signedValue (digits : List Bool) :
    ofInt digits.length (signedValue digits) = digits :=
  (eq_ofInt_iff.mpr ⟨rfl, signedValue_modEq digits⟩).symm

theorem ofInt_value (digits : List Bool) : ofInt digits.length (value digits) = digits :=
  (eq_ofInt_iff.mpr ⟨rfl, Int.ModEq.refl _⟩).symm

end MiniatureMachine.Bits
