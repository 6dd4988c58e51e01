import MiniatureMachine.Proofs.BitString.LongWord
import MiniatureMachine.Proofs.SignedBits

/-!
Contract: conversion between numbers and bit strings in words of 64 bits.

Owns:
- signed operations on words that have no result when they overflow;
- the conversions computed with them, which never overflow and have the results that the
  conversions of unlimited numbers have.

A signed number is read in a word of twice the size, where the weight of the sign has room, and
is narrowed again. A bit string of 63 digits is short enough that this is never refused.
-/

namespace MiniatureMachine.LongWord

open Bits (InSignedRange)

variable {size : Nat}

/-! ## Operations -/

def subtractSigned (left right : BitVec size) : Checked (BitVec size) :=
  checked (left.ssubOverflow right) (left - right)

def negateSigned (word : BitVec size) : Checked (BitVec size) :=
  checked word.negOverflow (-word)

/-! ## Conversions -/

def signedRange (width : Nat) : Checked (LongWord × LongWord) := do
  let half ← shiftLeft 1 (width - 1)
  return (← negateSigned half, ← subtractSigned half 1)

def ofSigned (number : LongWord) (width : Nat) : Checked String := do
  accept (BitString.checkWidth width)
  let (least, greatest) ← signedRange width
  if number.slt least ∨ greatest.slt number then throw (.outOfRange number.toInt width)
  else return render (number &&& (← mask width)) width

def ofUnsigned (number : LongWord) (width : Nat) : Checked String := do
  accept (BitString.checkWidth width)
  if number.slt 0 then throw (.outOfRange number.toInt width)
  else if (← mask width).ult number then throw (.outOfRange number.toInt width)
  else return render number width

/-- Narrows a wide word to a word that stands for the same number, if there is one. -/
def narrow (number : BitVec 128) (length : Nat) : Checked LongWord :=
  if (number.setWidth 64).toInt = number.toInt then pure (number.setWidth 64)
  else throw (.tooWide length)

def signedOfParsed (negative : Bool) (parsed : LongWord × Nat) : Checked LongWord := do
  let wide := parsed.1.setWidth 128
  if negative then narrow (← subtractSigned wide (← shiftLeft 1 parsed.2)) parsed.2
  else narrow wide parsed.2

def toSigned (text : String) : Checked LongWord := do
  let parsed ← parse text
  if parsed.2 = 0 then throw .empty
  else signedOfParsed (text.toList.head? == some '1') parsed

def toUnsigned (text : String) : Checked LongWord := do
  return (← parse text).1

/-! ## What the operations do -/

variable {number left right : Int}

theorem toInt_ofInt (positive : 0 < size) (inRange : InSignedRange size number) :
    (BitVec.ofInt size number).toInt = number :=
  BitVec.toInt_ofInt_eq_self positive inRange.1 (Int.lt_of_le_sub_one inRange.2)

private theorem subtractSigned_ofInt (positive : 0 < size) (inRangeLeft : InSignedRange size left)
    (inRangeRight : InSignedRange size right) (inRange : InSignedRange size (left - right)) :
    subtractSigned (BitVec.ofInt size left) (BitVec.ofInt size right) =
      accept (.ok (BitVec.ofInt size (left - right))) := by
  have difference : BitVec.ofInt size left - BitVec.ofInt size right =
      BitVec.ofInt size (left - right) := by
    rw [Int.sub_eq_add_neg, BitVec.ofInt_add, BitVec.ofInt_neg, BitVec.sub_eq_add_neg]
  rw [subtractSigned, difference]
  refine checked_of_eq_false ?_ _
  rw [BitVec.ssubOverflow, toInt_ofInt positive inRangeLeft, toInt_ofInt positive inRangeRight]
  unfold InSignedRange at inRange
  rw [decide_eq_false (by omega), decide_eq_false (by omega)]
  rfl

private theorem negateSigned_ofInt (positive : 0 < size) (inRange : InSignedRange size number)
    (notLeast : number ≠ -2 ^ (size - 1)) :
    negateSigned (BitVec.ofInt size number) = accept (.ok (BitVec.ofInt size (-number))) := by
  rw [negateSigned, BitVec.ofInt_neg]
  refine checked_of_eq_false ?_ _
  rw [BitVec.negOverflow, toInt_ofInt positive inRange]
  exact beq_eq_false_iff_ne.mpr notLeast

/-- A number that a word holds survives in a word of twice the size. -/
theorem narrow_ofInt (inRange : InSignedRange 64 number) (length : Nat) :
    narrow (BitVec.ofInt 128 number) length = accept (.ok (BitVec.ofInt 64 number)) := by
  have narrowed : (BitVec.ofInt 128 number).setWidth 64 = BitVec.ofInt 64 number := by
    apply BitVec.eq_of_toNat_eq
    rw [BitVec.toNat_setWidth, BitVec.toNat_ofInt, BitVec.toNat_ofInt]
    omega
  rw [narrow, narrowed, toInt_ofInt (by decide) inRange,
    toInt_ofInt (by decide) (inRange.mono (by decide)), if_pos rfl]
  rfl

/-- A word has the same low digits as an unsigned and as a signed number. -/
theorem ofInt_toInt (word : LongWord) {width : Nat} (inside : width ≤ 64) :
    Bits.ofInt width word.toInt = Bits.ofNat width (word.toNat % 2 ^ width) := by
  have whole : word.toInt % 2 ^ 64 = word.toNat := by
    have same := congrArg BitVec.toNat (@BitVec.ofInt_toInt 64 word)
    rw [BitVec.toNat_ofInt] at same
    omega
  have divides : (2 : Int) ^ width ∣ 2 ^ 64 := pow_dvd_pow 2 inside
  have low : word.toInt % 2 ^ width = ((word.toNat % 2 ^ width : Nat) : Int) := by
    rw [← Int.emod_emod_of_dvd word.toInt divides, whole]
    push_cast
    rfl
  rw [Bits.ofInt, Bits.capacity_eq, Nat.cast_pow, Nat.cast_ofNat, low, Int.toNat_natCast]

private theorem signedRange_eq {width : Nat} (positive : 0 < width) (inside : width ≤ 63) :
    signedRange width = accept (.ok (BitVec.ofInt 64 (Bits.signedRange width).1,
      BitVec.ofInt 64 (Bits.signedRange width).2)) := by
  have bounded : 2 ^ (width - 1) ≤ 2 ^ 62 := Nat.pow_le_pow_right (by decide) (by omega)
  have above := Nat.two_pow_pos (width - 1)
  have shifted := @shiftLeft_ofNat 64 1 (width - 1) (by omega) (by omega)
  rw [Nat.one_mul, ← Bits.capacity_eq, ← @BitVec.ofInt_natCast 64 (Bits.capacity _)] at shifted
  rw [← Bits.capacity_eq] at bounded above
  unfold signedRange Bits.signedRange
  generalize Bits.capacity (width - 1) = half at *
  have inRange : InSignedRange 64 (half : Int) := ⟨by omega, by omega⟩
  have one : InSignedRange 64 1 := ⟨by decide, by decide⟩
  have greatest : InSignedRange 64 ((half : Int) - 1) := ⟨by omega, by omega⟩
  rw [show (1 : LongWord) = BitVec.ofNat 64 1 from rfl, shifted, accept_ok_bind,
    negateSigned_ofInt (by decide) inRange (by omega), accept_ok_bind,
    show BitVec.ofNat 64 1 = BitVec.ofInt 64 1 from rfl,
    subtractSigned_ofInt (by decide) inRange one greatest]
  rfl

private theorem checkWidth_cases (width : Nat) :
    (BitString.checkWidth width = .ok () ∧ 0 < width ∧ width ≤ 32) ∨
      BitString.checkWidth width = .error (.unsupportedWidth width) := by
  unfold BitString.checkWidth
  split
  · exact .inr rfl
  · rename_i supported
    rw [BitString.maximalWidth] at supported
    exact .inl ⟨rfl, by omega, by omega⟩

/-- The signed comparison with the ends of a range is that of the numbers. -/
theorem outside_iff (number : LongWord) {width : Nat} (wide : width ≤ 64) :
    (number.slt (BitVec.ofInt 64 (Bits.signedRange width).1) = true ∨
        (BitVec.ofInt 64 (Bits.signedRange width).2).slt number = true) ↔
      ¬((Bits.signedRange width).1 ≤ number.toInt ∧
        number.toInt ≤ (Bits.signedRange width).2) := by
  obtain ⟨least, greatest⟩ := Bits.inSignedRange_ends width
  rw [BitVec.slt_iff_toInt_lt, BitVec.slt_iff_toInt_lt, toInt_ofInt (by decide) (least.mono wide),
    toInt_ofInt (by decide) (greatest.mono wide)]
  omega

theorem ofSigned_eq (number : LongWord) (width : Nat) :
    ofSigned number width = accept (BitString.ofSigned number.toInt width) := by
  unfold ofSigned BitString.ofSigned
  rcases checkWidth_cases width with ⟨supported, positive, narrow⟩ | unsupported
  · have wide : width ≤ 64 := by omega
    have digits : render (number &&& BitVec.ofNat 64 (2 ^ width - 1)) width =
        BitString.render (Bits.ofInt width number.toInt) := by
      have inside := Nat.mod_lt number.toNat (Nat.two_pow_pos width)
      rw [and_mask number (by omega), render_ofNat positive wide inside, ofInt_toInt number wide]
    rw [supported, accept_ok_bind, signedRange_eq positive (by omega), accept_ok_bind]
    dsimp only
    rw [mask_eq (by omega), accept_ok_bind, digits]
    by_cases inRange : (Bits.signedRange width).1 ≤ number.toInt ∧
        number.toInt ≤ (Bits.signedRange width).2
    · have inside := mt (outside_iff number wide).mp (not_not.mpr inRange)
      rw [if_neg inside]
      exact (congrArg accept (if_pos inRange)).symm
    · rw [if_pos ((outside_iff number wide).mpr inRange)]
      exact (congrArg accept (if_neg inRange)).symm
  · rw [unsupported]
    rfl

private theorem slt_zero_iff (word : LongWord) : word.slt 0 = true ↔ word.toInt < 0 := by
  rw [BitVec.slt_iff_toInt_lt]
  rfl

private theorem mask_ult_iff (word : LongWord) {width : Nat} (inside : width < 64) :
    (BitVec.ofNat 64 (2 ^ width - 1)).ult word = true ↔ 2 ^ width ≤ word.toNat := by
  have bounded : 2 ^ width < 2 ^ 64 := Nat.pow_lt_pow_right (by decide) inside
  have above := Nat.two_pow_pos width
  rw [BitVec.ult_iff_lt, BitVec.lt_def, BitVec.toNat_ofNat, Nat.mod_eq_of_lt (by omega)]
  omega

theorem ofUnsigned_eq (number : LongWord) (width : Nat) :
    ofUnsigned number width = accept (BitString.ofUnsigned number.toInt width) := by
  unfold ofUnsigned BitString.ofUnsigned
  rcases checkWidth_cases width with ⟨supported, positive, narrow⟩ | unsupported
  · rw [supported, accept_ok_bind, mask_eq (by omega), accept_ok_bind, Bits.capacity_eq]
    by_cases below : number.toInt < 0
    · rw [if_pos ((slt_zero_iff number).mpr below)]
      exact (congrArg accept (if_neg (by omega))).symm
    · have same : number.toInt = number.toNat := by
        rw [BitVec.toInt_eq_toNat_cond] at below ⊢
        omega
      rw [if_neg (mt (slt_zero_iff number).mp below)]
      by_cases large : 2 ^ width ≤ number.toNat
      · rw [if_pos ((mask_ult_iff number (by omega)).mpr large)]
        exact (congrArg accept (if_neg (by omega))).symm
      · have fits := Nat.lt_of_not_le large
        have digits : render number width = BitString.render (Bits.ofInt width number.toInt) := by
          rw [ofInt_toInt number (by omega), Nat.mod_eq_of_lt fits,
            ← render_ofNat positive (by omega) fits, BitVec.ofNat_toNat, BitVec.setWidth_eq]
        rw [if_neg (mt (mask_ult_iff number (by omega)).mp large), digits]
        exact (congrArg accept (if_pos (by omega))).symm
  · rw [unsupported]
    rfl

private theorem setWidth_ofNat {value : Nat} (fits : value < 2 ^ 64) :
    (BitVec.ofNat 64 value).setWidth 128 = BitVec.ofInt 128 value := by
  apply BitVec.eq_of_toNat_eq
  rw [BitVec.toNat_setWidth, BitVec.ofInt_natCast, BitVec.toNat_ofNat, BitVec.toNat_ofNat]
  omega

/-- A bit string that has been read has its sign taken off in a word of twice the size. -/
theorem signedOfParsed_eq {list : List Bool} (nonempty : list ≠ []) (short : list.length ≤ 63) :
    signedOfParsed (list.head? == some true) (BitVec.ofNat 64 (Bits.value list), list.length) =
      accept (.ok (BitVec.ofInt 64 (Bits.signedValue list))) := by
  have below := Bits.value_lt list
  have bounded : 2 ^ list.length ≤ 2 ^ 63 := Nat.pow_le_pow_right (by decide) short
  have weight := @shiftLeft_ofNat 128 1 list.length (by omega) (by omega)
  have inRange : InSignedRange 64 (Bits.signedValue list) :=
    (Bits.inSignedRange_signedValue nonempty).mono (by omega)
  rw [Nat.one_mul, ← Bits.capacity_eq, ← @BitVec.ofInt_natCast 128 (Bits.capacity _)] at weight
  rw [← Bits.capacity_eq] at bounded below
  unfold signedOfParsed
  dsimp only
  rw [setWidth_ofNat (by omega)]
  unfold Bits.signedValue at *
  by_cases negative : list.head? = some true
  · rw [if_pos negative] at *
    have inRangeValue : InSignedRange 128 (Bits.value list) := ⟨by omega, by omega⟩
    have inRangeWeight : InSignedRange 128 (Bits.capacity list.length) := ⟨by omega, by omega⟩
    rw [if_pos (beq_iff_eq.mpr negative), show (1 : BitVec 128) = BitVec.ofNat 128 1 from rfl,
      weight, accept_ok_bind, subtractSigned_ofInt (by decide) inRangeValue inRangeWeight
        (inRange.mono (by decide)), accept_ok_bind, narrow_ofInt inRange]
  · rw [if_neg negative] at *
    rw [if_neg (mt beq_iff_eq.mp negative), narrow_ofInt inRange]

/-- The number is read without a refusal, so it is that of the bit string. -/
theorem toSigned_eq (text : String) :
    BitVec.toInt <$> toSigned text = accept (BitString.toSigned text) := by
  unfold toSigned BitString.toSigned
  rcases parse_cases text with ⟨list, spells, parsed, read⟩ | ⟨fault, parsed, read⟩
  · have leading : (text.toList.head? == some '1') = (list.head? == some true) := by
      rw [spells.shown, BitString.toList_render, List.head?_map]
      cases list.head? with
      | none => rfl
      | some digit => cases digit <;> rfl
    rw [read, parsed, accept_ok_bind, leading]
    cases list with
    | nil => rfl
    | cons digit rest =>
        have inRange : InSignedRange 64 (Bits.signedValue (digit :: rest)) :=
          (Bits.inSignedRange_signedValue (List.cons_ne_nil _ _)).mono
            (Nat.le_succ_of_le spells.short)
        have nonempty : (digit :: rest).length ≠ 0 := Nat.succ_ne_zero _
        rw [if_neg nonempty, signedOfParsed_eq (List.cons_ne_nil _ _) spells.short]
        show accept (.ok (BitVec.ofInt 64 _).toInt) = _
        rw [toInt_ofInt (by decide) inRange]
        rfl
  · rw [read, parsed]
    rfl

theorem toUnsigned_eq (text : String) :
    BitVec.toNat <$> toUnsigned text = accept (BitString.toUnsigned text) := by
  unfold toUnsigned BitString.toUnsigned
  rcases parse_cases text with ⟨list, spells, parsed, read⟩ | ⟨fault, parsed, read⟩
  · have below := Bits.value_lt list
    have bounded : 2 ^ list.length ≤ 2 ^ 63 := Nat.pow_le_pow_right (by decide) spells.short
    rw [read, parsed]
    show accept (.ok (BitVec.ofNat 64 (Bits.value list)).toNat) = _
    rw [BitVec.toNat_ofNat, Nat.mod_eq_of_lt (by omega)]
    rfl
  · rw [read, parsed]
    rfl

end MiniatureMachine.LongWord
