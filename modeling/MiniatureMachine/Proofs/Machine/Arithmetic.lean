import MiniatureMachine.Proofs.Machine.DoubleWord
import MiniatureMachine.Proofs.Machine.Execution

/-!
Contract: the results of the arithmetic instructions.

Owns:
- the mathematical result of an arithmetic instruction;
- when a word holds it;
- what the execution does with it, and its computation in double words.

A result is described over the integers and not computed: the quotient and the remainder are
those of a floor division. The execution stores a result that a word holds and refuses any
other, also when the destination is register zero.
-/

namespace MiniatureMachine

open DoubleWord (Yields)

namespace FloorDivision

variable {left right quotient remainder : Int}

private theorem remainder_inRange (divides : FloorDivision left right quotient remainder)
    (inRange : Word.InRange right) : Word.InRange remainder := by
  have smaller := divides.smaller
  rw [Word.inRange_iff] at *
  omega

/-- The only quotient of words that no word holds is that of the least one by -1. -/
theorem quotient_inRange_iff (divides : FloorDivision left right quotient remainder)
    (dividend : Word.InRange left) (divisor : Word.InRange right) :
    Word.InRange quotient ↔ ¬(left = -32768 ∧ right = -1) := by
  rw [Word.inRange_iff] at *
  constructor
  · rintro inRange ⟨rfl, rfl⟩
    obtain ⟨recomposes, signed, smaller⟩ := divides
    omega
  · intro unlike
    by_contra outside
    -- a quotient beyond a word leads beyond a word when it is multiplied by the divisor
    have beyond : 32768 ≤ quotient ∨ quotient ≤ -32769 := by omega
    rcases Int.lt_or_gt_of_ne divides.ne_zero with negative | positive
    · obtain ⟨sum, lower, upper⟩ := (iff_of_neg negative).mp divides
      rcases beyond with large | small
      · have product := Int.mul_le_mul_of_nonpos_right large (Int.le_of_lt negative)
        omega
      · have product := Int.mul_le_mul_of_nonpos_right small (Int.le_of_lt negative)
        omega
    · obtain ⟨sum, lower, upper⟩ := (iff_of_pos positive).mp divides
      rcases beyond with large | small
      · have product := Int.mul_le_mul_of_nonneg_right large (Int.le_of_lt positive)
        omega
      · have product := Int.mul_le_mul_of_nonneg_right small (Int.le_of_lt positive)
        omega

end FloorDivision

def Operation.arithmetic : List Operation :=
  [.add, .sub, .mul, .div, .mod, .neg, .addn, .mov]

/-- The destination holds the result, unless it is register zero, and all else is as before. -/
structure State.Stores (index : Nat) (result : Int) (before after : State) : Prop where
  destination : after.number index = if index = 0 then 0 else result
  others : ∀ other, other ≠ index → after.registers[other]? = before.registers[other]?
  memory : after.memory = before.memory
  pc : after.pc = before.pc
  codeSize : after.codeSize = before.codeSize
  halted : after.halted = before.halted

private theorem State.stores_setRegister (state : State) {index : Nat}
    (inFile : index < registerCount)
    (word : Word) : Stores index word.toInt state (state.setRegister index word) where
  destination := by
    unfold number
    split
    · subst index
      rfl
    · rename_i visible
      rw [register_setRegister_same word inFile visible]
  others other different := Vector.getElem?_setIfInBounds_ne different.symm
  memory := rfl
  pc := rfl
  codeSize := rfl
  halted := rfl

namespace Instruction

/-! ## Results -/

def held (instruction : Instruction) (state : State) (position : Nat) : Int :=
  state.number (instruction.register position)

/-- The result of an arithmetic instruction over the integers. -/
inductive Computes (instruction : Instruction) (state : State) : Int → Prop
  | add (isAdd : instruction.operation = .add) :
      Computes instruction state (instruction.held state 1 + instruction.held state 2)
  | sub (isSub : instruction.operation = .sub) :
      Computes instruction state (instruction.held state 1 - instruction.held state 2)
  | mul (isMul : instruction.operation = .mul) :
      Computes instruction state (instruction.held state 1 * instruction.held state 2)
  | div {quotient remainder : Int} (isDiv : instruction.operation = .div)
      (divides : FloorDivision (instruction.held state 1) (instruction.held state 2) quotient
        remainder) : Computes instruction state quotient
  | mod {quotient remainder : Int} (isMod : instruction.operation = .mod)
      (divides : FloorDivision (instruction.held state 1) (instruction.held state 2) quotient
        remainder) : Computes instruction state remainder
  | neg (isNeg : instruction.operation = .neg) :
      Computes instruction state (-instruction.held state 1)
  | addn (isAddn : instruction.operation = .addn) :
      Computes instruction state (instruction.held state 0 + instruction.number 1)
  | mov (isMov : instruction.operation = .mov) :
      Computes instruction state (instruction.held state 1)

def DividesByZero (instruction : Instruction) (state : State) : Prop :=
  (instruction.operation = .div ∨ instruction.operation = .mod) ∧ instruction.held state 2 = 0

/-- The result as the execution computes it. -/
def result? (instruction : Instruction) (state : State) : Option Int :=
  match instruction.operation with
  | .mov => some (instruction.held state 1)
  | .neg => some (-instruction.held state 1)
  | .addn => some (instruction.held state 0 + instruction.number 1)
  | operation => operation.result? (instruction.held state 1) (instruction.held state 2)

def extended (instruction : Instruction) (state : State) (position : Nat) : DoubleWord :=
  .extend (state.register (instruction.register position))

def calculation (instruction : Instruction) (state : State) : Calculation :=
  match instruction.operation with
  | .mov => pure (instruction.extended state 1)
  | .neg => (instruction.extended state 1).negate
  | .addn => (instruction.extended state 0).add (BitVec.ofInt 32 (instruction.number 1))
  | operation =>
      DoubleWord.calculate operation (instruction.extended state 1) (instruction.extended state 2)

variable {instruction : Instruction} {state : State} {result : Int}

theorem result?_eq_some_iff (isArithmetic : instruction.operation ∈ Operation.arithmetic) :
    instruction.result? state = some result ↔ instruction.Computes state result := by
  constructor
  · intro computed
    cases operation : instruction.operation <;>
      simp only [result?, operation, Operation.result?, Option.ite_none_left_eq_some,
        Option.some.injEq] at computed
    case div =>
      obtain ⟨nonzero, quotient⟩ := computed
      exact .div operation ((FloorDivision.iff_fdiv_fmod nonzero).mpr ⟨quotient, rfl⟩)
    case mod =>
      obtain ⟨nonzero, remainder⟩ := computed
      exact .mod operation ((FloorDivision.iff_fdiv_fmod nonzero).mpr ⟨rfl, remainder⟩)
    case add => exact computed ▸ .add operation
    case sub => exact computed ▸ .sub operation
    case mul => exact computed ▸ .mul operation
    case neg => exact computed ▸ .neg operation
    case addn => exact computed ▸ .addn operation
    case mov => exact computed ▸ .mov operation
    all_goals
      rw [operation] at isArithmetic
      exact absurd isArithmetic (by decide)
  · intro computes
    cases computes with
    | div isDiv divides =>
        obtain ⟨rfl, -⟩ := (FloorDivision.iff_fdiv_fmod divides.ne_zero).mp divides
        simp only [result?, isDiv, Operation.result?, if_neg divides.ne_zero]
    | mod isMod divides =>
        obtain ⟨-, rfl⟩ := (FloorDivision.iff_fdiv_fmod divides.ne_zero).mp divides
        simp only [result?, isMod, Operation.result?, if_neg divides.ne_zero]
    | add operation | sub operation | mul operation | neg operation | addn operation
    | mov operation => simp only [result?, operation, Operation.result?]

theorem result?_eq_none_iff :
    instruction.result? state = none ↔ instruction.DividesByZero state := by
  unfold DividesByZero
  cases operation : instruction.operation <;> simp [result?, operation, Operation.result?]

private theorem number_bounds (instruction : Instruction) (position : Nat) :
    -128 ≤ instruction.number position ∧ instruction.number position ≤ 65535 := by
  unfold number number?
  rcases instruction.operands[position]? with _ | operand
  · decide
  · cases operand with
    | register number =>
        simp only [Option.getD_none]
        omega
    | signed byte =>
        have lower := BitVec.le_toInt byte
        have upper := @BitVec.toInt_lt 8 byte
        simp only [Option.getD_some, Operand.value]
        omega
    | unsigned byte =>
        have upper := byte.isLt
        simp only [Option.getD_some, Operand.value]
        omega
    | whole word =>
        have upper := word.isLt
        simp only [Option.getD_some, Operand.value]
        omega

theorem toInt_extended (position : Nat) :
    (instruction.extended state position).toInt = instruction.held state position :=
  DoubleWord.toInt_extend _

theorem held_inRange (position : Nat) : Word.InRange (instruction.held state position) := by
  rw [← toInt_extended]
  exact DoubleWord.extend_bounds _

private theorem yields_calculation (computed : instruction.result? state = some result) :
    Yields (instruction.calculation state) result := by
  have bounds := fun position => Word.inRange_iff.mp (@held_inRange instruction state position)
  unfold result? at computed
  unfold calculation
  split at computed
  case h_1 =>
    cases computed
    exact ⟨_, rfl, toInt_extended 1⟩
  case h_2 =>
    cases computed
    have source := bounds 1
    rw [← toInt_extended] at source ⊢
    exact DoubleWord.yields_negate (by unfold DoubleWord.InRange; omega)
  case h_3 =>
    cases computed
    have target := bounds 0
    have small := instruction.number_bounds 1
    have literal : (BitVec.ofInt 32 (instruction.number 1)).toInt = instruction.number 1 :=
      BitVec.toInt_ofInt_eq_self (by decide) (by omega) (by omega)
    have inRange : DoubleWord.InRange ((instruction.extended state 0).toInt +
        (BitVec.ofInt 32 (instruction.number 1)).toInt) := by
      rw [literal, toInt_extended]
      unfold DoubleWord.InRange
      omega
    have yields := DoubleWord.yields_add inRange
    rw [literal, toInt_extended] at yields
    exact yields
  case h_4 => exact DoubleWord.yields_calculate computed

private theorem calculation_of_none (undefined : instruction.result? state = none) :
    instruction.calculation state = .error .zeroDivisor := by
  have undivided := result?_eq_none_iff.mp undefined
  unfold result? at undefined
  unfold calculation
  rcases undivided with ⟨isDiv | isMod, -⟩
  · rw [isDiv] at undefined ⊢
    exact DoubleWord.calculate_of_none undefined
  · rw [isMod] at undefined ⊢
    exact DoubleWord.calculate_of_none undefined

private theorem execute_of_arithmetic (isArithmetic : instruction.operation ∈ Operation.arithmetic)
    (fetchedAt : Nat) :
    instruction.execute fetchedAt = Bench.update fun state =>
      match instruction.result? state with
      | some result => state.assign (instruction.register 0) result
      | none => .error (.divisionByZero fetchedAt) := by
  unfold execute result?
  cases operation : instruction.operation
  case add | sub | mul | div | mod | neg | addn | mov => rfl
  all_goals
    rw [operation] at isArithmetic
    exact absurd isArithmetic (by decide)

/-! ## Executions -/

/-- The execution of an arithmetic instruction agrees with arithmetic over the integers. -/
structure ExecutesExactly (instruction : Instruction) (fetchedAt : Nat) (bench : Bench) :
    Prop where
  /-- A division by zero is refused and changes nothing. -/
  zeroDivisor : instruction.DividesByZero bench.state →
    instruction.execute fetchedAt bench = .error (.divisionByZero fetchedAt) bench
  /-- Otherwise there is one result. -/
  defined : ¬instruction.DividesByZero bench.state →
    ∃ result, instruction.Computes bench.state result ∧
      ∀ other, instruction.Computes bench.state other → other = result
  /-- A result that a word holds is stored. -/
  stored : ∀ result, instruction.Computes bench.state result → Word.InRange result →
    ∃ after, State.Stores (instruction.register 0) result bench.state after ∧
      instruction.execute fetchedAt bench = .ok () ⟨after, bench.console⟩
  /-- Any other result is refused with its value and changes nothing. -/
  refused : ∀ result, instruction.Computes bench.state result → ¬Word.InRange result →
    instruction.execute fetchedAt bench = .error (.integerOverflow result) bench ∧
      (FaultCause.integerOverflow result).message =
        "Integer Overflow Error: Result was larger than 16 bits (" ++ toString result ++ ")."
  /-- In double words nothing overflows. -/
  calculated : ∀ result, instruction.Computes bench.state result →
    Yields (instruction.calculation bench.state) result
  calculatedZero : instruction.DividesByZero bench.state →
    instruction.calculation bench.state = .error .zeroDivisor

private theorem execute_of_computes (isArithmetic : instruction.operation ∈ Operation.arithmetic)
    {bench : Bench} (computes : instruction.Computes bench.state result) (fetchedAt : Nat) :
    instruction.execute fetchedAt bench =
      Bench.update (State.assign (instruction.register 0) result) bench := by
  rw [execute_of_arithmetic isArithmetic, Bench.update, Bench.update,
    (result?_eq_some_iff isArithmetic).mpr computes]

/-- Every arithmetic instruction stores the result over the integers or is refused. -/
theorem executesExactly (isArithmetic : instruction.operation ∈ Operation.arithmetic)
    (fetchedAt : Nat) (bench : Bench) : instruction.ExecutesExactly fetchedAt bench where
  zeroDivisor zero := by
    rw [execute_of_arithmetic isArithmetic, Bench.update, result?_eq_none_iff.mpr zero]
  defined nonzero := by
    obtain ⟨result, computed⟩ := Option.ne_none_iff_exists'.mp (mt result?_eq_none_iff.mp nonzero)
    refine ⟨result, (result?_eq_some_iff isArithmetic).mp computed, fun other computes => ?_⟩
    have computedOther := (result?_eq_some_iff isArithmetic).mpr computes
    exact Option.some.inj (computedOther.symm.trans computed)
  stored result computes inRange := by
    obtain ⟨word, rfl⟩ := Word.exists_of_inRange inRange
    refine ⟨_, State.stores_setRegister bench.state (instruction.register_lt 0) word, ?_⟩
    rw [execute_of_computes isArithmetic computes]
    exact Bench.update_eq_ok_iff.mpr ⟨_, State.assign_eq_ok_iff.mpr ⟨word, rfl, rfl⟩, rfl⟩
  refused result computes outside := by
    have unheld := Word.ofInt?_eq_none_iff.mpr outside
    rw [execute_of_computes isArithmetic computes]
    exact ⟨Bench.update_eq_error_iff.mpr ⟨State.assign_eq_error_iff.mpr ⟨unheld, rfl⟩, rfl⟩, rfl⟩
  calculated _ computes := yields_calculation ((result?_eq_some_iff isArithmetic).mpr computes)
  calculatedZero zero := calculation_of_none (result?_eq_none_iff.mpr zero)

private theorem Computes.inRange_of_mod (computes : instruction.Computes state result)
    (isMod : instruction.operation = .mod) : Word.InRange result := by
  cases computes with
  | mod _ divides => exact divides.remainder_inRange (held_inRange 2)
  | div other | add other | sub other | mul other | neg other | addn other | mov other =>
      cases isMod.symm.trans other

private theorem Computes.inRange_of_mov (computes : instruction.Computes state result)
    (isMov : instruction.operation = .mov) : Word.InRange result := by
  cases computes with
  | mov => exact held_inRange 1
  | div other | mod other | add other | sub other | mul other | neg other | addn other =>
      cases isMov.symm.trans other

private theorem Computes.inRange_iff_of_neg (computes : instruction.Computes state result)
    (isNeg : instruction.operation = .neg) :
    Word.InRange result ↔ instruction.held state 1 ≠ -32768 := by
  have source := @held_inRange instruction state 1
  rw [Word.inRange_iff] at *
  cases computes with
  | neg => omega
  | div other | mod other | add other | sub other | mul other | addn other | mov other =>
      cases isNeg.symm.trans other

private theorem Computes.inRange_iff_of_div (computes : instruction.Computes state result)
    (isDiv : instruction.operation = .div) :
    Word.InRange result ↔
      ¬(instruction.held state 1 = -32768 ∧ instruction.held state 2 = -1) := by
  cases computes with
  | div _ divides => exact divides.quotient_inRange_iff (held_inRange 1) (held_inRange 2)
  | mod other | add other | sub other | mul other | neg other | addn other | mov other =>
      cases isDiv.symm.trans other

/-- An arithmetic instruction stores its exact result or is refused. A remainder and a copy
are always stored, a negation unless it is of the least number, and a quotient unless it is of
the least number by -1. -/
theorem arithmetic_exact_or_refused (isArithmetic : instruction.operation ∈ Operation.arithmetic)
    (fetchedAt : Nat) (bench : Bench) :
    instruction.ExecutesExactly fetchedAt bench ∧
      ∀ result, instruction.Computes bench.state result →
        (instruction.operation = .mod ∨ instruction.operation = .mov → Word.InRange result) ∧
          (instruction.operation = .neg →
            (Word.InRange result ↔ instruction.held bench.state 1 ≠ -32768)) ∧
          (instruction.operation = .div →
            (Word.InRange result ↔
              ¬(instruction.held bench.state 1 = -32768 ∧ instruction.held bench.state 2 = -1))) :=
  ⟨executesExactly isArithmetic fetchedAt bench, fun _ computes =>
    ⟨fun isEither => isEither.elim computes.inRange_of_mod computes.inRange_of_mov,
      computes.inRange_iff_of_neg, computes.inRange_iff_of_div⟩⟩

/-- A state with a dividend in register 2 and a divisor in register 3. -/
def dividing (dividend divisor : Word) : Bench :=
  ⟨((State.ofImage ⟨[]⟩).setRegister 2 dividend).setRegister 3 divisor, .start [] .calm⟩

/-- The quotient of the least number by -1 is refused although register zero is the
destination, and that of -7 by 2 is rounded down to -4. -/
theorem quotients_of_dividing :
    (decode 0x9023).execute 5 (dividing (-32768) (-1)) =
        .error (.integerOverflow 32768) (dividing (-32768) (-1)) ∧
      ∃ after, after.number 1 = -4 ∧
        (decode 0x9123).execute 5 (dividing (-7) 2) = .ok () ⟨after, .start [] .calm⟩ := by
  have overflow : FloorDivision (-32768) (-1) 32768 0 := ⟨by decide, by decide, by decide⟩
  have floored : FloorDivision (-7) 2 (-4) 1 := ⟨by decide, by decide, by decide⟩
  obtain ⟨refuses, -⟩ := @arithmetic_exact_or_refused (decode 0x9023) (by decide) 5
    (dividing (-32768) (-1))
  obtain ⟨stores, -⟩ := @arithmetic_exact_or_refused (decode 0x9123) (by decide) 5
    (dividing (-7) 2)
  obtain ⟨after, stored, executes⟩ :=
    stores.stored (-4) (.div (by decide) floored) (Word.inRange_iff.mpr (by decide))
  refine ⟨(refuses.refused 32768 (.div (by decide) overflow) ?_).1, after, ?_, executes⟩
  · rw [Word.inRange_iff]
    decide
  · exact stored.destination

end Instruction

end MiniatureMachine
