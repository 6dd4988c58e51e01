import MiniatureMachine.Machine.Arithmetic
import MiniatureMachine.Word
import Mathlib.Algebra.Ring.Int.Defs

/-!
Contract: the arithmetic of the machine in words of 32 bits.

Owns:
- the quotient and the remainder of a floor division, described without computing them;
- operations on double words that refuse a result they cannot hold;
- the machine's arithmetic computed with these operations from extended words.

A double word holds every sum, difference and product of two words, and every quotient of
them, so nothing is refused but a division by zero. The floor division corrects a division
that truncates: where the signs differ and there is a remainder, the quotient is one too
large and the remainder is off by the divisor.
-/

namespace MiniatureMachine

/-! ## Floor division -/

/-- A quotient and a remainder that has the sign of the divisor. -/
structure FloorDivision (left right quotient remainder : Int) : Prop where
  recomposes : left = quotient * right + remainder
  signed : remainder = 0 ∨ remainder.sign = right.sign
  smaller : remainder.natAbs < right.natAbs

namespace FloorDivision

variable {left right quotient remainder : Int}

theorem ne_zero (divides : FloorDivision left right quotient remainder) : right ≠ 0 := by
  rintro rfl
  exact absurd divides.smaller (by simp)

theorem iff_of_pos (positive : 0 < right) :
    FloorDivision left right quotient remainder ↔
      quotient * right + remainder = left ∧ 0 ≤ remainder ∧ remainder < right := by
  have signs : remainder.sign = right.sign ↔ 0 < remainder := by
    rw [Int.sign_eq_one_of_pos positive, Int.sign_eq_one_iff_pos]
  constructor
  · rintro ⟨recomposes, signed, smaller⟩
    rw [signs] at signed
    exact ⟨recomposes.symm, by omega, by omega⟩
  · rintro ⟨sum, lower, upper⟩
    exact ⟨sum.symm, by rw [signs]; omega, by omega⟩

theorem iff_of_neg (negative : right < 0) :
    FloorDivision left right quotient remainder ↔
      quotient * right + remainder = left ∧ right < remainder ∧ remainder ≤ 0 := by
  have signs : remainder.sign = right.sign ↔ remainder < 0 := by
    rw [Int.sign_eq_neg_one_of_neg negative, Int.sign_eq_neg_one_iff_neg]
  constructor
  · rintro ⟨recomposes, signed, smaller⟩
    rw [signs] at signed
    exact ⟨recomposes.symm, by omega, by omega⟩
  · rintro ⟨sum, lower, upper⟩
    exact ⟨sum.symm, by rw [signs]; omega, by omega⟩

/-- There is one such quotient and one such remainder, unless the divisor is zero. -/
theorem iff_fdiv_fmod (nonzero : right ≠ 0) :
    FloorDivision left right quotient remainder ↔
      left.fdiv right = quotient ∧ left.fmod right = remainder := by
  rcases Int.lt_or_gt_of_ne nonzero with negative | positive
  · rw [iff_of_neg negative, Int.fdiv_fmod_unique' negative, Int.mul_comm, Int.add_comm]
  · rw [iff_of_pos positive, Int.fdiv_fmod_unique positive, Int.mul_comm, Int.add_comm]

/-- The remainder of a division that truncates has the sign of the dividend. -/
theorem tmod_bounds (nonzero : right ≠ 0) :
    (left.tmod right).natAbs < right.natAbs ∧ (0 ≤ left → 0 ≤ left.tmod right) ∧
      (left < 0 → left.tmod right ≤ 0) := by
  refine ⟨?_, Int.tmod_nonneg right, fun negative => ?_⟩
  · rw [Int.natAbs_tmod]
    exact Nat.mod_lt _ (Int.natAbs_pos.mpr nonzero)
  · have opposite := Int.tmod_nonneg (a := -left) right (by omega)
    rw [Int.neg_tmod] at opposite
    omega

/-- The correction of a division that truncates. -/
theorem of_truncated (nonzero : right ≠ 0) :
    FloorDivision left right
      (if left.tmod right ≠ 0 ∧ decide (left < 0) ≠ decide (right < 0) then left.tdiv right - 1
        else left.tdiv right)
      (if left.tmod right ≠ 0 ∧ decide (left.tmod right < 0) ≠ decide (right < 0) then
        left.tmod right + right else left.tmod right) := by
  have sum := Int.mul_tdiv_add_tmod left right
  obtain ⟨smaller, ofNonneg, ofNeg⟩ := @tmod_bounds left right nonzero
  generalize left.tdiv right = quotient at *
  generalize left.tmod right = remainder at *
  rw [Int.mul_comm] at sum
  have more : (quotient - 1) * right = quotient * right - right := by
    rw [Int.sub_mul, Int.one_mul]
  simp only [ne_eq, decide_eq_decide]
  by_cases corrected : ¬remainder = 0 ∧ ¬(left < 0 ↔ right < 0)
  · rw [if_pos corrected, if_pos (by omega)]
    rcases Int.lt_or_gt_of_ne nonzero with negative | positive
    · exact (iff_of_neg negative).mpr (by omega)
    · exact (iff_of_pos positive).mpr (by omega)
  · rw [if_neg corrected, if_neg (by omega)]
    rcases Int.lt_or_gt_of_ne nonzero with negative | positive
    · exact (iff_of_neg negative).mpr (by omega)
    · exact (iff_of_pos positive).mpr (by omega)

end FloorDivision

/-! ## Double words -/

/-- A word of 32 bits, read as a signed number. -/
abbrev DoubleWord := BitVec 32

inductive Refusal where
  /-- The divisor was found to be zero. -/
  | zeroDivisor
  /-- An operation has no result, or none that a double word holds. -/
  | overflow
deriving DecidableEq, Repr

abbrev Calculation := Except Refusal DoubleWord

namespace DoubleWord

/-- The double word that stands for the same number as a word. -/
def extend (word : Word) : DoubleWord :=
  word.signExtend 32

/-! ### Operations -/

/-- Refuses a result when its operation overflows. -/
def checked (overflows : Bool) (result : DoubleWord) : Calculation :=
  if overflows then .error .overflow else .ok result

def add (left right : DoubleWord) : Calculation :=
  checked (left.saddOverflow right) (left + right)

def subtract (left right : DoubleWord) : Calculation :=
  checked (left.ssubOverflow right) (left - right)

def multiply (left right : DoubleWord) : Calculation :=
  checked (left.smulOverflow right) (left * right)

def negate (operand : DoubleWord) : Calculation :=
  checked operand.negOverflow (-operand)

/-- The quotient, rounded toward zero. -/
def quotient (left right : DoubleWord) : Calculation :=
  checked (right == 0 || left.sdivOverflow right) (left.sdiv right)

/-- The remainder of the quotient that is rounded toward zero. -/
def remainder (left right : DoubleWord) : Calculation :=
  checked (right == 0 || left.sdivOverflow right) (left.srem right)

/-- The quotient, rounded toward negative infinity. -/
def floorQuotient (left right : DoubleWord) : Calculation := do
  if right = 0 then throw .zeroDivisor
  let truncated ← quotient left right
  let rest ← remainder left right
  if rest ≠ 0 ∧ left.slt 0 ≠ right.slt 0 then subtract truncated 1 else pure truncated

/-- The remainder with the sign of the divisor. -/
def floorRemainder (left right : DoubleWord) : Calculation := do
  if right = 0 then throw .zeroDivisor
  let rest ← remainder left right
  if rest ≠ 0 ∧ rest.slt 0 ≠ right.slt 0 then add rest right else pure rest

def calculate (operation : Operation) (left right : DoubleWord) : Calculation :=
  match operation with
  | .add => add left right
  | .sub => subtract left right
  | .mul => multiply left right
  | .div => floorQuotient left right
  | .mod => floorRemainder left right
  | _ => pure 0

/-! ### Their results -/

/-- A computation has a result, which stands for a number. -/
def Yields (calculation : Calculation) (number : Int) : Prop :=
  ∃ result : DoubleWord, calculation = .ok result ∧ result.toInt = number

variable {left right operand : DoubleWord} {number : Int}

theorem Yields.bind {first : Calculation} {next : DoubleWord → Calculation} {other : Int}
    (yields : Yields first number)
    (goesOn : ∀ result : DoubleWord, result.toInt = number → Yields (next result) other) :
    Yields (first >>= next) other := by
  obtain ⟨result, rfl, reads⟩ := yields
  exact goesOn result reads

theorem toInt_extend (word : Word) : (extend word).toInt = word.toInt :=
  BitVec.toInt_signExtend_of_le (by decide)

def InRange (number : Int) : Prop :=
  -2147483648 ≤ number ∧ number ≤ 2147483647

theorem yields_checked {overflows : Bool} {result : DoubleWord} (fits : overflows = false)
    (reads : result.toInt = number) : Yields (checked overflows result) number := by
  subst fits
  exact ⟨result, rfl, reads⟩

theorem yields_add (inRange : InRange (left.toInt + right.toInt)) :
    Yields (add left right) (left.toInt + right.toInt) := by
  have fits : left.saddOverflow right = false := by
    unfold InRange at inRange
    simp only [BitVec.saddOverflow, Bool.or_eq_false_iff, decide_eq_false_iff_not]
    omega
  exact yields_checked fits (BitVec.toInt_add_of_not_saddOverflow (by simp [fits]))

private theorem yields_subtract (inRange : InRange (left.toInt - right.toInt)) :
    Yields (subtract left right) (left.toInt - right.toInt) := by
  have fits : left.ssubOverflow right = false := by
    unfold InRange at inRange
    simp only [BitVec.ssubOverflow, Bool.or_eq_false_iff, decide_eq_false_iff_not]
    omega
  exact yields_checked fits (BitVec.toInt_sub_of_not_ssubOverflow (by simp [fits]))

private theorem yields_multiply (inRange : InRange (left.toInt * right.toInt)) :
    Yields (multiply left right) (left.toInt * right.toInt) := by
  have fits : left.smulOverflow right = false := by
    unfold InRange at inRange
    simp only [BitVec.smulOverflow, Bool.or_eq_false_iff, decide_eq_false_iff_not]
    omega
  exact yields_checked fits (BitVec.toInt_mul_of_not_smulOverflow (by simp [fits]))

theorem yields_negate (inRange : InRange (-operand.toInt)) :
    Yields (negate operand) (-operand.toInt) := by
  have fits : operand.negOverflow = false := by
    unfold InRange at inRange
    simp only [BitVec.negOverflow, beq_eq_false_iff_ne]
    omega
  exact yields_checked fits (BitVec.toInt_neg_of_not_negOverflow (by simp [fits]))

/-- The only quotient of double words that is too large has the least of them as its dividend. -/
theorem fits_quotient (nonzero : right ≠ 0) (notLeast : left.toInt ≠ -2147483648) :
    (right == 0 || left.sdivOverflow right) = false ∧ left ≠ BitVec.intMin 32 := by
  have differs : left ≠ BitVec.intMin 32 := by
    rintro rfl
    exact notLeast (by decide)
  refine ⟨?_, differs⟩
  rw [BitVec.sdivOverflow_eq, beq_false_of_ne nonzero, decide_eq_false differs]
  rfl

private theorem yields_quotient (nonzero : right ≠ 0) (notLeast : left.toInt ≠ -2147483648) :
    Yields (quotient left right) (left.toInt.tdiv right.toInt) := by
  obtain ⟨fits, differs⟩ := fits_quotient nonzero notLeast
  exact yields_checked fits (BitVec.toInt_sdiv_of_ne_or_ne left right (.inl differs))

private theorem yields_remainder (nonzero : right ≠ 0) (notLeast : left.toInt ≠ -2147483648) :
    Yields (remainder left right) (left.toInt.tmod right.toInt) :=
  yields_checked (fits_quotient nonzero notLeast).1 (BitVec.toInt_srem left right)

theorem toInt_eq_zero_iff : operand.toInt = 0 ↔ operand = 0 :=
  @BitVec.toInt_inj 32 operand 0

theorem toInt_ne_zero_iff : operand.toInt ≠ 0 ↔ operand ≠ 0 :=
  not_congr toInt_eq_zero_iff

private theorem slt_zero (operand : DoubleWord) : operand.slt 0 = decide (operand.toInt < 0) :=
  BitVec.slt_eq_decide

private theorem corrects_iff {rest sign : DoubleWord} :
    rest ≠ 0 ∧ sign.slt 0 ≠ right.slt 0 ↔
      rest.toInt ≠ 0 ∧ decide (sign.toInt < 0) ≠ decide (right.toInt < 0) := by
  rw [slt_zero, slt_zero, toInt_ne_zero_iff]

private theorem yields_floorQuotient (nonzero : right ≠ 0) (notLeast : left.toInt ≠ -2147483648) :
    Yields (floorQuotient left right) (left.toInt.fdiv right.toInt) := by
  have divisor := toInt_ne_zero_iff.mpr nonzero
  have notMore := Int.natAbs_tdiv_le_natAbs left.toInt right.toInt
  have lower := BitVec.le_toInt left
  have upper := @BitVec.toInt_lt 32 left
  rw [((FloorDivision.iff_fdiv_fmod divisor).mp (.of_truncated divisor)).1, floorQuotient,
    if_neg nonzero]
  refine Yields.bind (yields_quotient nonzero notLeast) fun truncated reads => ?_
  refine Yields.bind (yields_remainder nonzero notLeast) fun rest readsRest => ?_
  rw [← reads] at notMore ⊢
  simp only [corrects_iff, readsRest]
  split
  · have inRange : InRange (truncated.toInt - 1) := by
      unfold InRange
      omega
    exact yields_subtract inRange
  · exact ⟨truncated, rfl, rfl⟩

private theorem yields_floorRemainder (nonzero : right ≠ 0) (notLeast : left.toInt ≠ -2147483648) :
    Yields (floorRemainder left right) (left.toInt.fmod right.toInt) := by
  have divisor := toInt_ne_zero_iff.mpr nonzero
  obtain ⟨smaller, -, -⟩ := @FloorDivision.tmod_bounds left.toInt right.toInt divisor
  have lower := BitVec.le_toInt right
  have upper := @BitVec.toInt_lt 32 right
  rw [((FloorDivision.iff_fdiv_fmod divisor).mp (.of_truncated divisor)).2, floorRemainder,
    if_neg nonzero]
  refine Yields.bind (yields_remainder nonzero notLeast) fun rest reads => ?_
  rw [← reads] at smaller ⊢
  simp only [corrects_iff]
  split
  · rename_i corrected
    have unlike := corrected.2
    simp only [ne_eq, decide_eq_decide] at unlike
    have inRange : InRange (rest.toInt + right.toInt) := by
      unfold InRange
      omega
    exact yields_add inRange
  · exact ⟨rest, rfl, rfl⟩

/-! ### From words -/

theorem extend_bounds (word : Word) :
    -32768 ≤ (extend word).toInt ∧ (extend word).toInt ≤ 32767 := by
  have lower := BitVec.le_toInt word
  have upper := @BitVec.toInt_lt 16 word
  rw [toInt_extend]
  omega

private theorem inRange_mul_extend (first second : Word) :
    InRange ((extend first).toInt * (extend second).toInt) := by
  have small : ∀ word : Word, (extend word).toInt.natAbs ≤ 32768 := fun word => by
    have bounds := extend_bounds word
    omega
  have product := Nat.mul_le_mul (small first) (small second)
  rw [← Int.natAbs_mul] at product
  unfold InRange
  omega

/-- Arithmetic on words has the result that it has on the integers. -/
theorem yields_calculate {operation : Operation} {first second : Word}
    (result : operation.result? first.toInt second.toInt = some number) :
    Yields (calculate operation (extend first) (extend second)) number := by
  have bounds := extend_bounds first
  have bounds' := extend_bounds second
  have notLeast : (extend first).toInt ≠ -2147483648 := by omega
  rw [← toInt_extend first, ← toInt_extend second] at result
  have product := inRange_mul_extend first second
  generalize extend first = left at *
  generalize extend second = right at *
  cases operation <;> simp only [Operation.result?, Option.some.injEq, Option.ite_none_left_eq_some,
    ← ne_eq, toInt_ne_zero_iff] at result
  case add =>
    subst result
    exact yields_add (by unfold InRange; omega)
  case sub =>
    subst result
    exact yields_subtract (by unfold InRange; omega)
  case mul =>
    subst result
    exact yields_multiply product
  case div =>
    obtain ⟨nonzero, rfl⟩ := result
    exact yields_floorQuotient nonzero notLeast
  case mod =>
    obtain ⟨nonzero, rfl⟩ := result
    exact yields_floorRemainder nonzero notLeast
  all_goals
    subst result
    exact ⟨0, rfl, rfl⟩

theorem calculate_of_none {operation : Operation} {first second : Word}
    (undefined : operation.result? first.toInt second.toInt = none) :
    calculate operation (extend first) (extend second) = .error .zeroDivisor := by
  rw [← toInt_extend second] at undefined
  generalize extend second = right at *
  cases operation <;> simp only [Operation.result?, reduceCtorEq, ite_eq_left_iff, imp_false,
    not_not] at undefined
  case div =>
    rw [calculate, floorQuotient, if_pos (toInt_eq_zero_iff.mp undefined)]
    rfl
  case mod =>
    rw [calculate, floorRemainder, if_pos (toInt_eq_zero_iff.mp undefined)]
    rfl

end DoubleWord

end MiniatureMachine
