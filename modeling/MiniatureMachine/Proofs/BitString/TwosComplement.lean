import MiniatureMachine.Proofs.BitString.LongWordConversion

/-!
Contract: conversion between numbers and bit strings of a width.

Owns:
- which numbers are written at a width, and with which digits;
- that writing and reading undo each other, for signed and for unsigned numbers;
- what a bit string of any length reads as.

Both conversions write the residue of a number. They differ in the numbers that they admit and in
the number that a text stands for, so the round trips are proved once, from these two.
-/

namespace MiniatureMachine.BitString

open Bits (InSignedRange)

variable {width : Nat} {number : Int} {text : String} {list : List Bool}

/-! ## Writing -/

private theorem checkWidth_of_supported (positive : 0 < width) (supported : width ≤ 32) :
    checkWidth width = .ok () := by
  refine if_neg ?_
  rw [maximalWidth]
  omega

private theorem ite_eq_ok_iff {condition : Prop} [Decidable condition] {result : String}
    {fault : BitError} :
    (if condition then .ok result else .error fault : Except BitError String) = .ok text ↔
      condition ∧ text = result := by
  split
  · rename_i holds
    rw [Except.ok.injEq, and_iff_right holds, eq_comm]
  · rename_i fails
    exact ⟨nofun, fun written => absurd written.1 fails⟩

theorem ofSigned_eq_ok_iff (positive : 0 < width) (supported : width ≤ 32) :
    ofSigned number width = .ok text ↔
      InSignedRange width number ∧ text = render (Bits.ofInt width number) := by
  rw [ofSigned, checkWidth_of_supported positive supported, Bits.inSignedRange_iff_signedRange]
  exact ite_eq_ok_iff

private theorem ofUnsigned_eq_ok_iff (positive : 0 < width) (supported : width ≤ 32) :
    ofUnsigned number width = .ok text ↔
      (0 ≤ number ∧ number < 2 ^ width) ∧ text = render (Bits.ofInt width number) := by
  rw [ofUnsigned, checkWidth_of_supported positive supported, Bits.capacity_eq, Nat.cast_pow,
    Nat.cast_ofNat]
  exact ite_eq_ok_iff

/-! ## Reading -/

/-- A text that spells a digit at least is read without a fault. -/
theorem Spells.toSigned_eq (spells : Spells text list) (nonempty : list ≠ []) :
    toSigned text = .ok (Bits.signedValue list) := by
  obtain ⟨digit, rest, rfl⟩ := List.exists_cons_of_ne_nil nonempty
  rw [toSigned, spells.parse_eq]
  rfl

theorem Spells.toUnsigned_eq (spells : Spells text list) :
    toUnsigned text = .ok (Bits.value list) := by
  rw [toUnsigned, spells.parse_eq]
  rfl

/-! ## Round trips -/

/-- Writing at a width and reading undo each other. The numbers that are written are the
admissible ones, with as many digits as the width has, and they are read back. Every text of that
many digits is what the number that it reads as is written as. -/
structure InverseAt (width : Nat) (Admissible : Int → Prop)
    (write : Int → Except BitError String) (read : String → Except BitError Int) : Prop where
  written_iff : ∀ number, (∃ text, write number = .ok text) ↔ Admissible number
  spells : ∀ number text, write number = .ok text →
    ∃ list, Spells text list ∧ list.length = width
  read_written : ∀ number text, write number = .ok text → read text = .ok number
  written_read : ∀ text list, Spells text list → list.length = width →
    ∃ number, read text = .ok number ∧ write number = .ok text

/-- The round trips follow from those between digit lists and numbers. -/
theorem inverseAt_of_numbers {Admissible : Int → Prop} {write : Int → Except BitError String}
    {read : String → Except BitError Int} {numberOf : List Bool → Int} (short : width ≤ 63)
    (written : ∀ number text, write number = .ok text ↔
      Admissible number ∧ text = render (Bits.ofInt width number))
    (reads : ∀ text list, Spells text list → list.length = width → read text = .ok (numberOf list))
    (admissible : ∀ list, list.length = width → Admissible (numberOf list))
    (numberOf_ofInt : ∀ number, Admissible number → numberOf (Bits.ofInt width number) = number)
    (ofInt_numberOf : ∀ list, list.length = width → Bits.ofInt width (numberOf list) = list) :
    InverseAt width Admissible write read where
  written_iff number := by
    constructor
    · rintro ⟨text, writes⟩
      exact ((written number text).mp writes).1
    · intro inRange
      exact ⟨_, (written number _).mpr ⟨inRange, rfl⟩⟩
  spells number text writes := by
    have length := Bits.length_ofInt width number
    obtain ⟨-, rfl⟩ := (written number text).mp writes
    exact ⟨_, spells_render (length.le.trans short), length⟩
  read_written number text writes := by
    have length := Bits.length_ofInt width number
    obtain ⟨inRange, rfl⟩ := (written number text).mp writes
    rw [reads _ _ (spells_render (length.le.trans short)) length, numberOf_ofInt number inRange]
  written_read text list spells length := by
    refine ⟨numberOf list, reads text list spells length, ?_⟩
    rw [written, ofInt_numberOf list length]
    exact ⟨admissible list length, spells.shown⟩

private theorem signed_inverseAt (positive : 0 < width) (supported : width ≤ 32) :
    InverseAt width (InSignedRange width) (ofSigned · width) toSigned := by
  have nonempty (list : List Bool) (length : list.length = width) : list ≠ [] :=
    List.ne_nil_of_length_pos (positive.trans_eq length.symm)
  refine inverseAt_of_numbers (by omega) (fun number text => ofSigned_eq_ok_iff positive supported)
    (fun text list spells length => spells.toSigned_eq (nonempty list length)) ?_
    (fun number => Bits.signedValue_ofInt positive) ?_
  · rintro list length
    have inRange := Bits.inSignedRange_signedValue (nonempty list length)
    rw [length] at inRange
    exact inRange
  · rintro list rfl
    exact Bits.ofInt_signedValue list

private theorem unsigned_inverseAt (positive : 0 < width) (supported : width ≤ 32) :
    InverseAt width (fun number => 0 ≤ number ∧ number < 2 ^ width) (ofUnsigned · width)
      (fun text => (toUnsigned text).map Int.ofNat) := by
  refine inverseAt_of_numbers (by omega)
    (fun number text => ofUnsigned_eq_ok_iff positive supported)
    (fun text list spells _ => congrArg (Except.map Int.ofNat) spells.toUnsigned_eq) ?_ ?_ ?_
  · rintro list rfl
    exact ⟨Int.natCast_nonneg _, Bits.natCast_value_lt list⟩
  · rintro number ⟨nonneg, below⟩
    exact (Bits.value_ofInt width number).trans (Int.emod_eq_of_lt nonneg below)
  · rintro list rfl
    exact Bits.ofInt_value list

/-- At every supported width, numbers and bit strings are converted into each other without loss.
A bit string of any length reads as the sum of its weighted digits, of which the leading one
counts negatively, and repeating that digit in front changes nothing. Words of 64 bits are wide
enough for all of this. -/
theorem conversions_inverse :
    (∀ width, 0 < width → width ≤ 32 →
      InverseAt width (fun number => -2 ^ (width - 1) ≤ number ∧ number ≤ 2 ^ (width - 1) - 1)
          (ofSigned · width) toSigned ∧
        InverseAt width (fun number => 0 ≤ number ∧ number < 2 ^ width) (ofUnsigned · width)
          (fun text => (toUnsigned text).map Int.ofNat)) ∧
    (∀ text digit rest, Spells text (digit :: rest) →
      toSigned text = .ok ((Bits.value rest : Int) - digit.toNat * 2 ^ rest.length) ∧
        ∀ count extended, Spells extended (List.replicate count digit ++ digit :: rest) →
          toSigned extended = toSigned text) ∧
    (∀ (number : LongWord) width,
      LongWord.ofSigned number width = LongWord.accept (ofSigned number.toInt width) ∧
        LongWord.ofUnsigned number width = LongWord.accept (ofUnsigned number.toInt width)) ∧
    ∀ text, BitVec.toInt <$> LongWord.toSigned text = LongWord.accept (toSigned text) ∧
      BitVec.toNat <$> LongWord.toUnsigned text = LongWord.accept (toUnsigned text) := by
  refine ⟨fun width positive supported =>
    ⟨signed_inverseAt positive supported, unsigned_inverseAt positive supported⟩, ?_,
    fun number width => ⟨LongWord.ofSigned_eq number width, LongWord.ofUnsigned_eq number width⟩,
    fun text => ⟨LongWord.toSigned_eq text, LongWord.toUnsigned_eq text⟩⟩
  intro text digit rest spells
  refine ⟨?_, fun count extended spellsExtended => ?_⟩
  · rw [spells.toSigned_eq (List.cons_ne_nil _ _), Bits.signedValue_cons]
  · have nonempty : List.replicate count digit ++ digit :: rest ≠ [] :=
      List.append_ne_nil_of_right_ne_nil _ (List.cons_ne_nil _ _)
    rw [spells.toSigned_eq (List.cons_ne_nil _ _), spellsExtended.toSigned_eq nonempty,
      Bits.signedValue_replicate_append]

/-- The least number of eight digits, with the sign repeated in a longer text. -/
theorem least_number_of_eight_digits :
    ofSigned (-128) 8 = .ok "10000000" ∧ toSigned "10000000" = .ok (-128) ∧
      toSigned "11110000000" = toSigned "10000000" := by
  have written : ofSigned (-128) 8 = .ok "10000000" := by decide
  have spells : Spells "10000000" (true :: List.replicate 7 false) := ⟨by decide, by decide⟩
  have extended : Spells "11110000000" (List.replicate 3 true ++ true :: List.replicate 7 false) :=
    ⟨by decide, by decide⟩
  obtain ⟨atWidth, ofLength, -⟩ := conversions_inverse
  exact ⟨written, (atWidth 8 (by decide) (by decide)).1.read_written _ _ written,
    (ofLength _ _ _ spells).2 3 _ extended⟩

end MiniatureMachine.BitString
