import Mathlib.Algebra.Ring.Int.Defs
import MiniatureMachine.Proofs.Isa.Shadowing

/-!
Contract: the word of an instruction as a sum.

Owns:
- the fields of an operation, which are its operand slots with their places in a word;
- what values put into fields add to the number of a word;
- the bits that they leave alone;
- the number of the word of an instruction.

The slots of an operation lie next to each other from its origin downwards, so its fields do
not overlap. The pattern of the operation has no bit in any of them.
-/

namespace MiniatureMachine

/-! ## Fields -/

/-- A place for an operand in a word: a slot, and the position of its lowest bit. -/
structure Field where
  slot : Slot
  offset : Nat
deriving DecidableEq, Repr

namespace Field

/-- The bit of a word belongs to the field. -/
def Covers (field : Field) (bit : Nat) : Prop :=
  field.offset ≤ bit ∧ bit < field.offset + field.slot.width

instance (field : Field) (bit : Nat) : Decidable (field.Covers bit) :=
  inferInstanceAs (Decidable (_ ∧ _))

/-- The places of consecutive slots, each of them right below the one before it. -/
def below : (top : Nat) → List Slot → List Field
  | _, [] => []
  | top, slot :: slots => ⟨slot, top - slot.width⟩ :: below (top - slot.width) slots

def operandsBelow (top : Nat) (slots : List Slot) : List Field :=
  (below top slots).filter fun field => field.slot.takesOperand

/-- What a value adds to the number of a word when it is put into the field. -/
def share (field : Field) (value : Int) : Nat :=
  (value % 2 ^ field.slot.width).toNat <<< field.offset

def total : List Field → List Int → Nat
  | field :: fields, value :: values => field.share value + total fields values
  | _, _ => 0

end Field

def Operation.operandFields (operation : Operation) : List Field :=
  Field.operandsBelow operation.origin operation.shape

def Slot.span (slots : List Slot) : Nat :=
  slots.foldr (fun slot total => slot.width + total) 0

namespace Field

section Bits

variable {slot : Slot} {slots : List Slot} {top bit : Nat} {values : List Int}

theorem operandsBelow_cons_of_takes (takes : slot.takesOperand = true) :
    operandsBelow top (slot :: slots) =
      ⟨slot, top - slot.width⟩ :: operandsBelow (top - slot.width) slots := by
  rw [operandsBelow, below, List.filter_cons, if_pos takes]
  rfl

theorem operandsBelow_cons_of_not_takes (takesNone : slot.takesOperand = false) :
    operandsBelow top (slot :: slots) = operandsBelow (top - slot.width) slots := by
  rw [operandsBelow, below, List.filter_cons, if_neg (by rw [takesNone]; decide)]
  rfl

private theorem residue_lt (slot : Slot) (value : Int) :
    (value % 2 ^ slot.width).toNat < 2 ^ slot.width := by
  cases slot <;> simp only [Slot.width] <;> omega

/-- A value in the topmost slot comes before all that is put below it. -/
theorem share_eq (slot : Slot) (value : Int) (offset : Nat) :
    share ⟨slot, offset⟩ value = 2 ^ offset * (value % 2 ^ slot.width).toNat := by
  rw [share, Nat.shiftLeft_eq, Nat.mul_comm]

/-- All that is put below a place stays below it. -/
theorem total_lt (fits : Slot.span slots ≤ top) (values : List Int) :
    total (operandsBelow top slots) values < 2 ^ top := by
  induction slots generalizing top values with
  | nil => exact Nat.two_pow_pos top
  | cons slot slots inductionHypothesis =>
      have room : slot.width + Slot.span slots ≤ top := fits
      have lower := fun values => @inductionHypothesis (top - slot.width) (by omega) values
      have narrower : 2 ^ (top - slot.width) ≤ 2 ^ top :=
        Nat.pow_le_pow_right (by decide) (Nat.sub_le _ _)
      cases takes : slot.takesOperand with
      | false =>
          rw [operandsBelow_cons_of_not_takes takes]
          exact Nat.lt_of_lt_of_le (lower values) narrower
      | true =>
          rw [operandsBelow_cons_of_takes takes]
          cases values with
          | nil => exact Nat.two_pow_pos top
          | cons value values =>
              have residue := residue_lt slot value
              calc total (⟨slot, top - slot.width⟩ :: operandsBelow (top - slot.width) slots)
                    (value :: values)
                  < 2 ^ (top - slot.width) * ((value % 2 ^ slot.width).toNat + 1) := by
                    rw [total, share_eq, Nat.mul_add, Nat.mul_one]
                    exact Nat.add_lt_add_left (lower values) _
                _ ≤ 2 ^ (top - slot.width) * 2 ^ slot.width := Nat.mul_le_mul_left _ residue
                _ = 2 ^ top := by rw [← Nat.pow_add, Nat.sub_add_cancel (by omega)]

/-- Values put into fields set no bit outside of them. -/
theorem covers_of_testBit_total (fits : Slot.span slots ≤ top)
    (set : (total (operandsBelow top slots) values).testBit bit = true) :
    ∃ field ∈ operandsBelow top slots, field.Covers bit := by
  induction slots generalizing top values with
  | nil => simp [operandsBelow, below, total] at set
  | cons slot slots inductionHypothesis =>
      have room : slot.width + Slot.span slots ≤ top := fits
      have fitsBelow : Slot.span slots ≤ top - slot.width := by omega
      cases takes : slot.takesOperand with
      | false =>
          rw [operandsBelow_cons_of_not_takes takes] at set ⊢
          exact inductionHypothesis fitsBelow set
      | true =>
          rw [operandsBelow_cons_of_takes takes] at set ⊢
          cases values with
          | nil => simp [total] at set
          | cons value values =>
              rw [total, share_eq, Nat.testBit_two_pow_mul_add _ (total_lt fitsBelow values)] at set
              split at set
              · obtain ⟨field, member, covers⟩ := inductionHypothesis fitsBelow set
                exact ⟨field, List.mem_cons_of_mem _ member, covers⟩
              · rename_i notBelow
                refine ⟨_, List.mem_cons_self, Nat.le_of_not_lt notBelow, ?_⟩
                refine Nat.lt_of_not_le fun above => ?_
                have clear := Nat.testBit_lt_two_pow (Nat.lt_of_lt_of_le (residue_lt slot value)
                  (Nat.pow_le_pow_right (by decide) (Nat.le_sub_of_add_le' above)))
                exact Bool.false_ne_true (clear.symm.trans set)

end Bits

end Field

/-! ## Nibbles as numbers -/

/-- The number of a list of nibbles, most significant nibble first. -/
def Word.nibbleNumber : List (BitVec 4) → Nat
  | [] => 0
  | nibble :: nibbles => nibble.toNat * 2 ^ (4 * nibbles.length) + nibbleNumber nibbles

namespace Word

private theorem nibbleNumber_append (nibbles others : List (BitVec 4)) :
    nibbleNumber (nibbles ++ others) =
      nibbleNumber nibbles * 2 ^ (4 * others.length) + nibbleNumber others := by
  induction nibbles with
  | nil => simp [nibbleNumber]
  | cons nibble nibbles inductionHypothesis =>
      rw [List.cons_append, nibbleNumber, nibbleNumber, inductionHypothesis, List.length_append,
        Nat.mul_add, Nat.pow_add]
      grind

private theorem toNat_ofNibbles (a b c d : BitVec 4) :
    (ofNibbles a b c d).toNat = nibbleNumber [a, b, c, d] := by
  unfold ofNibbles
  simp only [BitVec.toNat_append, nibbleNumber, List.length_cons, List.length_nil]
  rw [← Nat.shiftLeft_add_eq_or_of_lt b.isLt, ← Nat.shiftLeft_add_eq_or_of_lt d.isLt,
    ← Nat.shiftLeft_add_eq_or_of_lt (by omega)]
  omega

/-- Nibbles at the front of a word count for the places behind them. -/
theorem toNat_ofLeading {nibbles : List (BitVec 4)} (short : nibbles.length ≤ 4) :
    (ofLeading nibbles).toNat = nibbleNumber nibbles * 2 ^ (16 - 4 * nibbles.length) := by
  rw [ofLeading, toNat_ofNibbles]
  rcases nibbles with _ | ⟨w, _ | ⟨x, _ | ⟨y, _ | ⟨z, _ | ⟨v, nibbles⟩⟩⟩⟩⟩
  case cons.cons.cons.cons.cons =>
    simp only [List.length_cons] at short
    omega
  all_goals
    simp [nibbleNumber]
    try omega

end Word

/-! ## The word of an instruction -/

namespace Operand

private theorem nibbleNumber_byte (byte : BitVec 8) :
    Word.nibbleNumber [byte.extractLsb' 4 4, byte.extractLsb' 0 4] = byte.toNat := by
  have below := byte.isLt
  simp only [Word.nibbleNumber, BitVec.extractLsb'_toNat, Nat.shiftRight_eq_div_pow,
    List.length_cons, List.length_nil]
  omega

private theorem nibbleNumber_word (word : Word) :
    Word.nibbleNumber (whole word).nibbles = word.toNat := by
  rw [nibbles, ← Word.toNat_ofNibbles, Word.ofNibbles_extract]

/-- The nibbles of an operand are what its value is modulo the capacity of its slot. -/
theorem residue_value {slot : Slot} {operand : Operand} (takes : slot.Takes operand) :
    (operand.value % 2 ^ slot.width).toNat = Word.nibbleNumber operand.nibbles := by
  cases takes with
  | register number =>
      have below := number.isLt
      simp only [value, Slot.width, nibbles, Word.nibbleNumber, List.length_nil]
      omega
  | signed byte =>
      have below := byte.isLt
      rw [nibbles, nibbleNumber_byte, value, Slot.width, BitVec.toInt_eq_toNat_cond]
      split <;> omega
  | unsigned byte =>
      have below := byte.isLt
      rw [nibbles, nibbleNumber_byte, value, Slot.width]
      omega
  | whole word =>
      have below := word.isLt
      rw [nibbleNumber_word, value, Slot.width]
      omega

/-- Operands put into their fields add what their nibbles say. -/
theorem total_values {slots : List Slot} {operands : List Operand} {top : Nat}
    (fills : Fills slots operands) (fits : Slot.span slots ≤ top) :
    Field.total (Field.operandsBelow top slots) (operands.map value) =
      Word.nibbleNumber (fields slots operands) * 2 ^ (top - Slot.span slots) := by
  induction fills generalizing top with
  | nil => simp [Field.operandsBelow, Field.below, Field.total, Word.nibbleNumber]
  | @filler slots operands fills inductionHypothesis =>
      have room : 4 + Slot.span slots ≤ top := fits
      have span : Slot.span (.filler :: slots) = 4 + Slot.span slots := rfl
      rw [Field.operandsBelow_cons_of_not_takes rfl, inductionHypothesis (by simp; omega), fields,
        Word.nibbleNumber, span, Slot.width, Nat.sub_sub]
      simp
  | @operand slot operand slots operands takes fills inductionHypothesis =>
      have room : slot.width + Slot.span slots ≤ top := fits
      have span : Slot.span (slot :: slots) = slot.width + Slot.span slots := rfl
      have takesOperand : slot.takesOperand = true := by cases takes <;> rfl
      have length : 4 * (fields slots operands).length = Slot.span slots := length_fields fills
      rw [Field.operandsBelow_cons_of_takes takesOperand, List.map_cons, Field.total,
        inductionHypothesis (by omega), fields_cons takes, Word.nibbleNumber_append,
        Field.share_eq, residue_value takes, length, span, Nat.add_mul, Nat.mul_assoc,
        ← Nat.pow_add, ← Nat.sub_sub, Nat.add_sub_cancel' (by omega), Nat.mul_comm]

end Operand

/-- The pattern of an operation has no bit in its fields. -/
theorem Operation.getLsbD_pattern (operation : Operation) {field : Field} {bit : Nat}
    (member : field ∈ operation.operandFields) (covers : field.Covers bit) :
    operation.row.pattern.getLsbD bit = false := by
  have clear : ∀ field ∈ operation.operandFields, ∀ bit < 16, field.Covers bit →
      operation.row.pattern.getLsbD bit = false := by
    cases operation <;> decide
  by_cases inWord : bit < 16
  · exact clear field member bit inWord covers
  · exact BitVec.getLsbD_of_ge _ _ (Nat.le_of_not_lt inWord)

namespace Instruction

variable {instruction : Instruction}

/-- The nibbles of the operands are what the operands add to the word. -/
theorem toNat_ofLeading_nibbles (formed : instruction.WellFormed) :
    (Word.ofLeading instruction.nibbles).toNat =
      Field.total instruction.operation.operandFields (instruction.operands.map Operand.value) := by
  have length : 4 * instruction.fields.length = instruction.operation.span :=
    Operand.length_fields formed
  have fits := instruction.operation.span_le_origin
  have origin : instruction.operation.origin = 16 ∨ instruction.operation.origin = 12 := by
    cases instruction.operation <;> simp
  rw [Word.toNat_ofLeading formed.length_nibbles, Operation.operandFields,
    Operand.total_values formed fits]
  have leading : Word.nibbleNumber instruction.nibbles = Word.nibbleNumber instruction.fields := by
    unfold nibbles
    split
    · rfl
    · rw [List.singleton_append, Word.nibbleNumber]
      simp
  have behind : 16 - 4 * instruction.nibbles.length =
      instruction.operation.origin - instruction.operation.span := by
    unfold nibbles
    rw [List.length_append]
    rcases origin with whole | offset
    · rw [if_pos whole, List.length_nil]
      omega
    · rw [if_neg (by omega), List.length_singleton]
      omega
  rw [leading, behind]
  rfl

/-- The operands set bits only in their fields. -/
theorem covers_of_operands (formed : instruction.WellFormed) {bit : Nat}
    (set : (Word.ofLeading instruction.nibbles).getLsbD bit = true) :
    ∃ field ∈ instruction.operation.operandFields, field.Covers bit := by
  rw [BitVec.getLsbD, toNat_ofLeading_nibbles formed] at set
  exact Field.covers_of_testBit_total instruction.operation.span_le_origin set

private theorem disjoint_pattern (formed : instruction.WellFormed) :
    instruction.operation.row.pattern &&& Word.ofLeading instruction.nibbles = 0#16 := by
  apply BitVec.eq_of_getLsbD_eq
  intro bit inWord
  rw [BitVec.getLsbD_and, BitVec.getLsbD_zero]
  cases set : (Word.ofLeading instruction.nibbles).getLsbD bit with
  | false => exact Bool.and_false _
  | true =>
      obtain ⟨field, member, covers⟩ := covers_of_operands formed set
      rw [instruction.operation.getLsbD_pattern member covers]
      rfl

/-- The number of the word of an instruction is that of the pattern and what the operands add
to it. -/
theorem toNat_word (formed : instruction.WellFormed) :
    instruction.word.toNat = instruction.operation.row.pattern.toNat +
      Field.total instruction.operation.operandFields (instruction.operands.map Operand.value) := by
  have disjoint := disjoint_pattern formed
  rw [word, ← BitVec.add_eq_or_of_and_eq_zero _ _ disjoint,
    BitVec.toNat_add_of_and_eq_zero disjoint, toNat_ofLeading_nibbles formed]

/-- Outside of the fields the word of an instruction has the bits of the pattern. -/
theorem getLsbD_word (formed : instruction.WellFormed) {bit : Nat}
    (outside : ∀ field ∈ instruction.operation.operandFields, ¬field.Covers bit) :
    instruction.word.getLsbD bit = instruction.operation.row.pattern.getLsbD bit := by
  rw [word, BitVec.getLsbD_or]
  cases set : (Word.ofLeading instruction.nibbles).getLsbD bit with
  | false => exact Bool.or_false _
  | true =>
      obtain ⟨field, member, covers⟩ := covers_of_operands formed set
      exact absurd covers (outside field member)

end Instruction

end MiniatureMachine
