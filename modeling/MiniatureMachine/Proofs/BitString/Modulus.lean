import Mathlib.Data.List.DropRight
import MiniatureMachine.Proofs.BitString.Addition
import MiniatureMachine.Proofs.BitString.TwosComplement

/-!
Contract: arithmetic on bit strings of a width as arithmetic of residues.

Owns:
- the last digits of a digit list, and that they hold the residue of its value;
- the complement and the negation of a digit list by length and value;
- sums and negations of signed numbers of a width, read from the last digits of the result.

A sum may have one digit more than the width, and so has the negation of zero. The law of
residues is therefore about the last digits of a result. A residue belongs to one signed number,
which settles the value; the cases where no signed number of the width is exact are the overflow
of a sum and the negation of the least number.
-/

namespace MiniatureMachine

namespace Bits

variable {digits : List Bool} {width : Nat}

/-! ## The last digits -/

theorem length_rtake (wide : width ≤ digits.length) : (digits.rtake width).length = width := by
  rw [List.rtake, List.length_drop]
  omega

/-- The last digits hold the residue of the value. -/
theorem value_rtake (wide : width ≤ digits.length) :
    value (digits.rtake width) = value digits % 2 ^ width := by
  have parts : digits.take (digits.length - width) ++ digits.rtake width = digits :=
    List.take_append_drop _ _
  have below := value_lt (digits.rtake width)
  rw [length_rtake wide] at below
  conv_rhs => rw [← parts, value_append, length_rtake wide]
  rw [Nat.add_comm, Nat.add_mul_mod_self_right, Nat.mod_eq_of_lt below]

/-- The signed number that the last digits stand for. -/
theorem signedValue_rtake (positive : 0 < width) (wide : width ≤ digits.length) :
    InSignedRange width (signedValue (digits.rtake width)) ∧
      signedValue (digits.rtake width) ≡ value digits [ZMOD 2 ^ width] := by
  have length := length_rtake wide
  have nonempty : digits.rtake width ≠ [] :=
    List.ne_nil_of_length_pos (positive.trans_eq length.symm)
  have inRange := inSignedRange_signedValue nonempty
  have residue := signedValue_modEq (digits.rtake width)
  rw [value_rtake wide, length, Int.natCast_mod, Nat.cast_pow, Nat.cast_ofNat] at residue
  rw [length] at inRange
  exact ⟨inRange, residue.trans (Int.mod_modEq _ _)⟩

/-! ## Negation -/

theorem complement_complement (digits : List Bool) : complement (complement digits) = digits := by
  rw [complement, complement, List.map_map]
  exact List.map_id'' Bool.not_not digits

/-- The negation completes the value to the capacity of the width. -/
theorem value_negate (digits : List Bool) :
    value (negate digits) = 2 ^ digits.length - value digits := by
  have below := value_lt digits
  have one : value [true] = 1 := rfl
  rw [negate, value_add, value_complement, one]
  omega

theorem length_negate (nonempty : digits ≠ []) :
    (negate digits).length = if value digits = 0 then digits.length + 1 else digits.length := by
  have below := value_lt digits
  have longer : max digits.length [true].length = digits.length :=
    Nat.max_eq_left (List.length_pos_iff.mpr nonempty)
  have one : value [true] = 1 := rfl
  rw [negate, length_add, sumWidth, value_complement, length_complement, longer, one]
  by_cases zero : value digits = 0
  · rw [if_pos zero, if_neg (by omega)]
  · rw [if_neg zero, if_pos (by omega)]

private theorem negate_replicate_false {length : Nat} (positive : 0 < length) :
    negate (List.replicate length false) = true :: List.replicate length false := by
  have zero := value_replicate_false length
  have nonempty : List.replicate length false ≠ [] :=
    List.ne_nil_of_length_pos (positive.trans_eq List.length_replicate.symm)
  apply eq_of_value
  · rw [length_negate nonempty, if_pos zero, List.length_cons]
  · rw [value_negate, value_cons, zero, Bool.toNat_true, Nat.one_mul, Nat.sub_zero, Nat.add_zero]

/-- All digit lists but those of zeros come back, since only these grow by a digit. -/
theorem negate_negate (nonzero : value digits ≠ 0) : negate (negate digits) = digits := by
  have nonempty : digits ≠ [] := by
    rintro rfl
    exact nonzero rfl
  have below := value_lt digits
  have length := length_negate nonempty
  have value := value_negate digits
  rw [if_neg nonzero] at length
  have nonemptyNegated : negate digits ≠ [] :=
    List.ne_nil_of_length_pos ((List.length_pos_iff.mpr nonempty).trans_eq length.symm)
  apply eq_of_value
  · rw [length_negate nonemptyNegated, if_neg (by omega), length]
  · rw [value_negate, value, length]
    omega

/-! ## Residues -/

private theorem value_add_ofInt (width : Nat) (first second : Int) :
    (value (add (ofInt width first) (ofInt width second)) : Int) ≡
      first + second [ZMOD 2 ^ width] := by
  rw [value_add, Nat.cast_add, value_ofInt, value_ofInt]
  exact (Int.mod_modEq first _).add (Int.mod_modEq second _)

private theorem value_negate_ofInt (width : Nat) (number : Int) :
    (value (negate (ofInt width number)) : Int) ≡ -number [ZMOD 2 ^ width] := by
  have below := value_lt (ofInt width number)
  rw [value_negate, Nat.cast_sub (Nat.le_of_lt below), value_ofInt, length_ofInt, Nat.cast_pow,
    Nat.cast_ofNat]
  have complete := Int.modulus_modEq_zero.sub (Int.mod_modEq number (2 ^ width))
  rw [Int.zero_sub] at complete
  exact complete

end Bits

namespace BitString

open Bits (InSignedRange)

variable {width : Nat} {number first second : Int} {text : String} {list : List Bool}

/-! ## Sums and opposites of numbers -/

def lastDigits (width : Nat) (text : String) : String :=
  String.ofList (text.toList.rtake width)

private theorem lastDigits_render (width : Nat) (list : List Bool) :
    lastDigits width (render list) = render (list.rtake width) := by
  rw [lastDigits, toList_render, List.rtake, List.length_map, ← List.map_drop]
  rfl

/-- The signed number of a width with the residue of a number. -/
structure IsResidue (width : Nat) (exact number : Int) : Prop where
  inRange : InSignedRange width number
  same : number ≡ exact [ZMOD 2 ^ width]

theorem IsResidue.unique {exact other : Int} (positive : 0 < width)
    (residue : IsResidue width exact number) (residueOther : IsResidue width exact other) :
    number = other :=
  residue.inRange.eq_of_modEq positive residueOther.inRange
    (residue.same.trans residueOther.same.symm)

/-- The last digits read as the signed number with the residue of what the whole stands for. -/
theorem toSigned_lastDigits {exact : Int} (positive : 0 < width) (supported : width ≤ 32)
    (wide : width ≤ list.length) (standsFor : (Bits.value list : Int) ≡ exact [ZMOD 2 ^ width]) :
    ∃ number, toSigned (lastDigits width (render list)) = .ok number ∧
      IsResidue width exact number := by
  have length := Bits.length_rtake wide
  have nonempty : list.rtake width ≠ [] :=
    List.ne_nil_of_length_pos (positive.trans_eq length.symm)
  obtain ⟨inRange, residue⟩ := Bits.signedValue_rtake positive wide
  refine ⟨Bits.signedValue (list.rtake width), ?_, inRange, residue.trans standsFor⟩
  rw [lastDigits_render, (spells_render (by omega)).toSigned_eq nonempty]

/-- A signed number of a width and its digits. -/
theorem ofSigned_of_inSignedRange (positive : 0 < width) (supported : width ≤ 32)
    (inRange : InSignedRange width number) :
    ofSigned number width = .ok (render (Bits.ofInt width number)) ∧
      Spells (render (Bits.ofInt width number)) (Bits.ofInt width number) := by
  have length := Bits.length_ofInt width number
  exact ⟨(ofSigned_eq_ok_iff positive supported).mpr ⟨inRange, rfl⟩, spells_render (by omega)⟩

/-- The last digits of a sum read as the sum modulo the capacity of the width. -/
theorem add_modulo (positive : 0 < width) (supported : width ≤ 32)
    (inRangeFirst : InSignedRange width first) (inRangeSecond : InSignedRange width second) :
    ∃ left right sum number, ofSigned first width = .ok left ∧ ofSigned second width = .ok right ∧
      add left right = .ok sum ∧ toSigned (lastDigits width sum) = .ok number ∧
        IsResidue width (first + second) number := by
  obtain ⟨writtenFirst, spellsFirst⟩ :=
    ofSigned_of_inSignedRange positive supported inRangeFirst
  obtain ⟨writtenSecond, spellsSecond⟩ :=
    ofSigned_of_inSignedRange positive supported inRangeSecond
  have wide : width ≤ (Bits.add (Bits.ofInt width first) (Bits.ofInt width second)).length := by
    rw [Bits.length_add, Bits.sumWidth, Bits.length_ofInt, Bits.length_ofInt, Nat.max_self]
    split <;> omega
  obtain ⟨number, read, residue⟩ :=
    toSigned_lastDigits positive supported wide (Bits.value_add_ofInt width first second)
  exact ⟨_, _, _, number, writtenFirst, writtenSecond, add_of_spells spellsFirst spellsSecond, read,
    residue⟩

theorem Spells.negate_eq (spells : Spells text list) :
    negate text = .ok (render (Bits.negate list)) := by
  rw [negate, spells.parse_eq]
  rfl

theorem Spells.complement_eq (spells : Spells text list) :
    complement text = .ok (render (Bits.complement list)) := by
  rw [complement, spells.parse_eq]
  rfl

/-- The signed number of the width with the residue of the opposite: the opposite itself, unless
the number is the least one. -/
theorem isResidue_opposite (positive : 0 < width) (inRange : InSignedRange width number) :
    IsResidue width (-number) (if number = -2 ^ (width - 1) then number else -number) := by
  by_cases least : number = -2 ^ (width - 1)
  · have doubled := Bits.two_pow_eq_double positive
    rw [if_pos least]
    refine ⟨inRange, Int.modEq_iff_dvd.mpr ⟨1, ?_⟩⟩
    omega
  · rw [if_neg least]
    refine ⟨?_, rfl⟩
    unfold InSignedRange at *
    omega

/-- The last digits of a negation read as the negated number, but for the least number, which has
no opposite. -/
theorem negate_modulo (positive : 0 < width) (supported : width ≤ 32)
    (inRange : InSignedRange width number) :
    ∃ text negated, ofSigned number width = .ok text ∧ negate text = .ok negated ∧
      toSigned (lastDigits width negated) =
        .ok (if number = -2 ^ (width - 1) then number else -number) := by
  obtain ⟨written, spells⟩ := ofSigned_of_inSignedRange positive supported inRange
  have nonempty : Bits.ofInt width number ≠ [] :=
    List.ne_nil_of_length_pos (positive.trans_eq (Bits.length_ofInt width number).symm)
  have wide : width ≤ (Bits.negate (Bits.ofInt width number)).length := by
    rw [Bits.length_negate nonempty, Bits.length_ofInt]
    split <;> omega
  obtain ⟨opposite, read, residue⟩ :=
    toSigned_lastDigits positive supported wide (Bits.value_negate_ofInt width number)
  rw [residue.unique positive (isResidue_opposite positive inRange)] at read
  exact ⟨_, _, written, spells.negate_eq, read⟩

/-! ## Opposites of texts -/

/-- The complement of a bit string has its length and is undone by a second one. -/
theorem Spells.complements (spells : Spells text list) :
    ∃ flipped, complement text = .ok (render flipped) ∧ flipped.length = list.length ∧
      Bits.value flipped = 2 ^ list.length - 1 - Bits.value list ∧
      complement (render flipped) = .ok text := by
  have length := Bits.length_complement list
  have short : (Bits.complement list).length ≤ 63 := length.le.trans spells.short
  refine ⟨Bits.complement list, spells.complement_eq, length, Bits.value_complement list, ?_⟩
  rw [(spells_render short).complement_eq, Bits.complement_complement, spells.shown]

/-- Negation grows zero by a digit. -/
theorem Spells.negates_zeros (spells : Spells text list) (nonempty : list ≠ [])
    (zeros : list = List.replicate list.length false) :
    negate text = .ok (render (true :: List.replicate list.length false)) := by
  rw [spells.negate_eq, ← Bits.negate_replicate_false (List.length_pos_iff.mpr nonempty), ← zeros]

/-- Negation of any other bit string keeps its length and is undone by a second one. -/
theorem Spells.negates (spells : Spells text list) (nonempty : list ≠ [])
    (notZeros : list ≠ List.replicate list.length false) :
    ∃ negated, negate text = .ok (render negated) ∧ negated.length = list.length ∧
      negate (render negated) = .ok text := by
  have nonzero : Bits.value list ≠ 0 := mt Bits.value_eq_zero_iff.mp notZeros
  have length := Bits.length_negate nonempty
  rw [if_neg nonzero] at length
  have short : (Bits.negate list).length ≤ 63 := length.le.trans spells.short
  refine ⟨Bits.negate list, spells.negate_eq, length, ?_⟩
  rw [(spells_render short).negate_eq, Bits.negate_negate nonzero, spells.shown]

/-- Arithmetic on the two's-complement forms of a width is arithmetic of residues: the last digits
of a sum read as the one signed number of the width with the residue of the sum, which is the sum
itself where it fits, and those of a negation as the opposite, or as the number itself where it is
the least one. On any bit string that is not empty the complement is an involution that completes
the value to the greatest one of the length, and so is the negation up to one more, except that it
grows a digit on zeros. Words of 64 bits are wide enough for both. -/
theorem arithmetic_modulo :
    (∀ width first second, 0 < width → width ≤ 32 →
      InSignedRange width first → InSignedRange width second →
        ∃ left right sum number,
          ofSigned first width = .ok left ∧ ofSigned second width = .ok right ∧
            add left right = .ok sum ∧ toSigned (lastDigits width sum) = .ok number ∧
              (∀ other, IsResidue width (first + second) other ↔ other = number) ∧
              (InSignedRange width (first + second) → number = first + second)) ∧
    (∀ width number, 0 < width → width ≤ 32 → InSignedRange width number →
      ∃ text negated, ofSigned number width = .ok text ∧ negate text = .ok negated ∧
        toSigned (lastDigits width negated) =
          .ok (if number = -2 ^ (width - 1) then number else -number)) ∧
    (∀ text list, Spells text list → list ≠ [] →
      (∃ flipped, complement text = .ok (render flipped) ∧ flipped.length = list.length ∧
        Bits.value flipped = 2 ^ list.length - 1 - Bits.value list ∧
        complement (render flipped) = .ok text) ∧
      (list = List.replicate list.length false →
        negate text = .ok (render (true :: List.replicate list.length false))) ∧
      (list ≠ List.replicate list.length false →
        ∃ negated, negate text = .ok (render negated) ∧ negated.length = list.length ∧
          negate (render negated) = .ok text)) ∧
    ∀ text, LongWord.complement text = LongWord.accept (complement text) ∧
      LongWord.negate text = LongWord.accept (negate text) := by
  refine ⟨?_, fun width number positive supported => negate_modulo positive supported,
    fun text list spells nonempty =>
      ⟨spells.complements, spells.negates_zeros nonempty, spells.negates nonempty⟩,
    fun text => ⟨LongWord.complement_eq text, LongWord.negate_eq text⟩⟩
  intro width first second positive supported inRangeFirst inRangeSecond
  obtain ⟨left, right, sum, number, writtenFirst, writtenSecond, added, read, residue⟩ :=
    add_modulo positive supported inRangeFirst inRangeSecond
  refine ⟨left, right, sum, number, writtenFirst, writtenSecond, added, read, fun other => ?_,
    fun fits => residue.unique positive ⟨fits, rfl⟩⟩
  constructor
  · exact fun residueOther => residueOther.unique positive residue
  · rintro rfl
    exact residue

/-- A sum that does not fit wraps around, and the least number is its own opposite. -/
theorem greatest_and_least_of_four_digits :
    (∃ sum number, add "0111" "0001" = .ok sum ∧ toSigned (lastDigits 4 sum) = .ok number ∧
      number = -8) ∧
    (∃ negated, negate "1000" = .ok negated ∧ toSigned (lastDigits 4 negated) = .ok (-8)) ∧
    negate "0000" = .ok "10000" := by
  obtain ⟨sums, opposites, texts, -⟩ := arithmetic_modulo
  have greatest : InSignedRange 4 7 := ⟨by decide, by decide⟩
  have one : InSignedRange 4 1 := ⟨by decide, by decide⟩
  have least : InSignedRange 4 (-8) := ⟨by decide, by decide⟩
  refine ⟨?_, ?_, ?_⟩
  · obtain ⟨left, right, sum, number, writtenFirst, writtenSecond, added, read, residues, -⟩ :=
      sums 4 7 1 (by decide) (by decide) greatest one
    obtain rfl : "0111" = left := Except.ok.inj writtenFirst
    obtain rfl : "0001" = right := Except.ok.inj writtenSecond
    exact ⟨sum, number, added, read, ((residues (-8)).mp ⟨least, by decide⟩).symm⟩
  · obtain ⟨text, negated, written, negates, read⟩ := opposites 4 (-8) (by decide) (by decide) least
    obtain rfl : "1000" = text := Except.ok.inj written
    exact ⟨negated, negates, read⟩
  · have zeros : Spells "0000" (List.replicate 4 false) := ⟨by decide, by decide⟩
    exact (texts _ _ zeros (List.cons_ne_nil _ _)).2.1 rfl

end BitString

end MiniatureMachine
