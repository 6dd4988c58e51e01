import MiniatureMachine.Proofs.Isa.Layout

/-!
Contract: what the word of an instruction decodes to.

Owns:
- operands that fill the slots of an operation;
- the word of an instruction: the pattern of its operation with the operands put in;
- the instructions that the decoder gives in place of others.

A special pattern stands before a general one in the opcode table, so a general
instruction with register zero in the right place decodes to the special one. All other
instructions decode to themselves.
-/

namespace MiniatureMachine

-- The slots of an operation and the places of its operands are computed.
attribute [simp] Operation.origin Operation.shape Slot.width Slot.operand? Word.operands

/-! ## Operands in their slots -/

/-- The nibbles of an operand, from the most significant one. -/
@[simp] def Operand.nibbles : Operand → List (BitVec 4)
  | register number => [number]
  | signed byte | unsigned byte => [byte.extractLsb' 4 4, byte.extractLsb' 0 4]
  | whole word =>
      [word.extractLsb' 12 4, word.extractLsb' 8 4, word.extractLsb' 4 4, word.extractLsb' 0 4]

/-- The operand is of the kind that the slot asks for. -/
inductive Slot.Takes : Slot → Operand → Prop
  | register (number : BitVec 4) : Takes .register (.register number)
  | signed (byte : BitVec 8) : Takes .signedByte (.signed byte)
  | unsigned (byte : BitVec 8) : Takes .unsignedByte (.unsigned byte)
  | whole (word : Word) : Takes .word (.whole word)

/-- One operand of the right kind for each slot but the fillers. -/
inductive Fills : List Slot → List Operand → Prop
  | operand {slot : Slot} {operand : Operand} {slots : List Slot} {operands : List Operand}
      (takes : slot.Takes operand) (fills : Fills slots operands) :
      Fills (slot :: slots) (operand :: operands)
  | filler {slots : List Slot} {operands : List Operand} (fills : Fills slots operands) :
      Fills (.filler :: slots) operands
  | nil : Fills [] []

theorem fills_filler_iff {slots : List Slot} {operands : List Operand} :
    Fills (.filler :: slots) operands ↔ Fills slots operands := by
  constructor
  · intro fills
    cases fills with
    | filler fills => exact fills
    | operand takes fills => cases takes
  · exact .filler

/-- The nibbles of consecutive slots. A filler is a zero. -/
@[simp] def Operand.fields : List Slot → List Operand → List (BitVec 4)
  | [], _ => []
  | .filler :: slots, operands => 0 :: fields slots operands
  | _ :: _, [] => []
  | _ :: slots, operand :: operands => operand.nibbles ++ fields slots operands

theorem Operand.fields_cons {slot : Slot} {operand : Operand} (takes : slot.Takes operand)
    (slots : List Slot) (operands : List Operand) :
    fields (slot :: slots) (operand :: operands) = operand.nibbles ++ fields slots operands := by
  cases takes <;> rfl

theorem Operand.length_nibbles {slot : Slot} {operand : Operand} (takes : slot.Takes operand) :
    4 * operand.nibbles.length = slot.width := by
  cases takes <;> rfl

/-- The fields are as long as the slots are wide. -/
theorem Operand.length_fields {slots : List Slot} {operands : List Operand}
    (fills : Fills slots operands) :
    4 * (fields slots operands).length =
      slots.foldr (fun slot total => slot.width + total) 0 := by
  induction fills with
  | nil => rfl
  | filler fills inductionHypothesis =>
      rw [List.foldr_cons, ← inductionHypothesis, fields, List.length_cons, Slot.width]
      omega
  | operand takes fills inductionHypothesis =>
      rw [List.foldr_cons, ← inductionHypothesis, ← length_nibbles takes, fields_cons takes,
        List.length_append]
      omega

namespace Instruction

@[simp] def fields (instruction : Instruction) : List (BitVec 4) :=
  Operand.fields instruction.operation.shape instruction.operands

def nibbles (instruction : Instruction) : List (BitVec 4) :=
  (if instruction.operation.origin = 16 then [] else [0]) ++ instruction.fields

def word (instruction : Instruction) : Word :=
  instruction.operation.row.pattern ||| Word.ofLeading instruction.nibbles

def WellFormed (instruction : Instruction) : Prop :=
  Fills instruction.operation.shape instruction.operands

/-- The nibbles of an instruction fit in a word. -/
theorem WellFormed.length_nibbles {instruction : Instruction}
    (formed : instruction.WellFormed) : instruction.nibbles.length ≤ 4 := by
  have width := Operand.length_fields formed
  have below := instruction.operation.span_le_origin
  rw [Operation.span, ← width] at below
  have origin : instruction.operation.origin = 16 ∨ instruction.operation.origin = 12 := by
    cases instruction.operation <;> simp
  unfold nibbles fields
  rw [List.length_append]
  rcases origin with whole | offset
  · rw [if_pos whole, List.length_nil]
    omega
  · rw [if_neg (by omega), List.length_singleton]
    omega

/-! ## Shadowing -/

/-- The instruction that the decoder gives for the word of another instruction. -/
inductive Shadows : (decoded written : Instruction) → Prop
  | same (instruction : Instruction) : Shadows instruction instruction
  | nopForMov : Shadows ⟨.nop, []⟩ ⟨.mov, [.register 0, .register 0]⟩
  | nopForAdd : Shadows ⟨.nop, []⟩ ⟨.add, [.register 0, .register 0, .register 0]⟩
  | movForAdd (target source : BitVec 4) :
      Shadows ⟨.mov, [.register target, .register source]⟩
        ⟨.add, [.register target, .register source, .register 0]⟩
  | negForSub (target source : BitVec 4) :
      Shadows ⟨.neg, [.register target, .register source]⟩
        ⟨.sub, [.register target, .register 0, .register source]⟩
  | jumpForCall (target : BitVec 8) :
      Shadows ⟨.jump, [.unsigned target]⟩ ⟨.call, [.register 0, .unsigned target]⟩

theorem Shadows.operation_of_data {decoded written : Instruction}
    (shadows : decoded.Shadows written) (isData : decoded.operation = .data) :
    written.operation = .data := by
  cases shadows with
  | same => exact isData
  | nopForMov | nopForAdd | movForAdd | negForSub | jumpForCall => cases isData

end Instruction

/-- The first and the last nibble of the pattern of an operation. -/
@[simp] def Operation.opcode : Operation → BitVec 4 × BitVec 4
  | .halt | .data => (0, 0)
  | .read => (0, 1)
  | .write => (0, 2)
  | .jumpi => (0, 3)
  | .loadn => (1, 0)
  | .load => (2, 0)
  | .store => (3, 0)
  | .loadi => (4, 0)
  | .storei => (4, 1)
  | .addn => (5, 0)
  | .nop | .mov | .add => (6, 0)
  | .neg | .sub => (7, 0)
  | .mul => (8, 0)
  | .div => (9, 0)
  | .mod => (10, 0)
  | .jump | .call => (11, 0)
  | .jeqz => (12, 0)
  | .jnez => (13, 0)
  | .jgtz => (14, 0)
  | .jltz => (15, 0)

/-- The middle nibbles of a pattern are zero. -/
theorem Operation.pattern_eq (operation : Operation) :
    operation.row.pattern = Word.ofNibbles operation.opcode.1 0 0 operation.opcode.2 := by
  cases operation <;> decide

namespace Instruction

open Word

@[simp] theorem byte_nibbles (byte : BitVec 8) :
    byte.extractLsb' 4 4 ++ byte.extractLsb' 0 4 = byte := by
  rw [BitVec.extractLsb'_append_extractLsb'_eq_extractLsb' (show 4 = 0 + 4 from rfl)]
  exact BitVec.extractLsb'_eq_self

/-! ## Words in nibbles -/

/-- The first nibble of a word is the opcode, and the operands follow. -/
theorem word_eq_ofNibbles {instruction : Instruction}
    (notData : instruction.operation ≠ .data) :
    instruction.word = ofNibbles instruction.operation.opcode.1 (instruction.fields.getD 0 0)
      (instruction.fields.getD 1 0)
      (instruction.operation.opcode.2 ||| instruction.fields.getD 2 0) := by
  have origin : instruction.operation.origin ≠ 16 := by
    cases operation : instruction.operation <;> simp_all [Operation.origin]
  rw [word, nibbles, if_neg origin, Operation.pattern_eq, List.singleton_append, ofLeading,
    ofNibbles_or]
  simp only [List.getD_cons_zero, List.getD_cons_succ, nibble_or_zero, zero_or_nibble]

private theorem operands_word {instruction : Instruction} (formed : instruction.WellFormed)
    (notData : instruction.operation ≠ .data) :
    instruction.word.operands instruction.operation.origin instruction.operation.shape =
      instruction.operands := by
  rw [word_eq_ofNibbles notData]
  obtain ⟨operation, operands⟩ := instruction
  unfold WellFormed at formed
  cases operation <;>
    simp only [Operation.shape, fills_filler_iff] at formed
  case data => exact absurd rfl notData
  case halt | nop =>
    cases formed
    rfl
  case read | write | jumpi =>
    obtain ⟨⟨x⟩, ⟨⟩⟩ := formed
    simp
  case loadn | addn =>
    obtain ⟨⟨x⟩, ⟨⟩, ⟨⟩⟩ := formed
    simp
  case load | store | call | jeqz | jnez | jgtz | jltz =>
    obtain ⟨⟨x⟩, ⟨⟩, ⟨⟩⟩ := formed
    simp
  case loadi | storei | mov =>
    obtain ⟨⟨x⟩, ⟨y⟩, ⟨⟩⟩ := formed
    simp
  case add | sub | mul | div | mod =>
    obtain ⟨⟨x⟩, ⟨y⟩, ⟨z⟩, ⟨⟩⟩ := formed
    simp
  case neg =>
    obtain ⟨⟨x⟩, fills⟩ := formed
    obtain ⟨⟨y⟩, ⟨⟩⟩ := fills_filler_iff.mp fills
    simp
  case jump =>
    obtain ⟨⟨⟩, ⟨⟩⟩ := formed
    simp

def selected (instruction : Instruction) : Operation :=
  operationOf instruction.operation.opcode.1 (instruction.fields.getD 0 0)
    (instruction.fields.getD 1 0) (instruction.operation.opcode.2 ||| instruction.fields.getD 2 0)

theorem decode_word_of_selected {instruction : Instruction} (formed : instruction.WellFormed)
    (notData : instruction.operation ≠ .data)
    (selects : instruction.selected = instruction.operation) :
    decode instruction.word = instruction := by
  have classified : classify instruction.word = instruction.operation := by
    rw [word_eq_ofNibbles notData, classify_ofNibbles]
    exact selects
  unfold decode
  dsimp only
  rw [classified, operands_word formed notData]

/-! ## The special patterns -/

private theorem decode_word_mov {x y : BitVec 4} (unlike : ¬(x = 0 ∧ y = 0)) :
    decode (word ⟨.mov, [.register x, .register y]⟩) = ⟨.mov, [.register x, .register y]⟩ :=
  decode_word_of_selected (.operand (.register x) (.operand (.register y) .nil)) nofun
    (by simpa [selected, operationOf] using unlike)

private theorem decode_word_neg (x z : BitVec 4) :
    decode (word ⟨.neg, [.register x, .register z]⟩) = ⟨.neg, [.register x, .register z]⟩ :=
  decode_word_of_selected (.operand (.register x) (.filler (.operand (.register z) .nil))) nofun
    (by simp [selected, operationOf])

private theorem decode_word_jump (target : BitVec 8) :
    decode (word ⟨.jump, [.unsigned target]⟩) = ⟨.jump, [.unsigned target]⟩ :=
  decode_word_of_selected (.filler (.operand (.unsigned target) .nil)) nofun
    (by simp [selected, operationOf])

private theorem shadows_decode_word_mov (x y : BitVec 4) :
    (decode (word ⟨.mov, [.register x, .register y]⟩)).Shadows
      ⟨.mov, [.register x, .register y]⟩ := by
  by_cases alike : x = 0 ∧ y = 0
  · obtain ⟨rfl, rfl⟩ := alike
    exact .nopForMov
  · rw [decode_word_mov alike]
    exact .same _

/-- A sum with register zero has the word of a copy. -/
theorem shadows_decode_word_add (x y : BitVec 4) :
    (decode (word ⟨.add, [.register x, .register y, .register 0]⟩)).Shadows
      ⟨.add, [.register x, .register y, .register 0]⟩ := by
  have sameWord : word ⟨.add, [.register x, .register y, .register 0]⟩ =
      word ⟨.mov, [.register x, .register y]⟩ := rfl
  rw [sameWord]
  by_cases alike : x = 0 ∧ y = 0
  · obtain ⟨rfl, rfl⟩ := alike
    exact .nopForAdd
  · rw [decode_word_mov alike]
    exact .movForAdd x y

/-- A difference from register zero has the word of a negation. -/
theorem shadows_decode_word_sub (x z : BitVec 4) :
    (decode (word ⟨.sub, [.register x, .register 0, .register z]⟩)).Shadows
      ⟨.sub, [.register x, .register 0, .register z]⟩ := by
  have sameWord : word ⟨.sub, [.register x, .register 0, .register z]⟩ =
      word ⟨.neg, [.register x, .register z]⟩ := rfl
  rw [sameWord, decode_word_neg]
  exact .negForSub x z

/-- A call with register zero has the word of a jump. -/
theorem shadows_decode_word_call (target : BitVec 8) :
    (decode (word ⟨.call, [.register 0, .unsigned target]⟩)).Shadows
      ⟨.call, [.register 0, .unsigned target]⟩ := by
  have sameWord : word ⟨.call, [.register 0, .unsigned target]⟩ =
      word ⟨.jump, [.unsigned target]⟩ := rfl
  rw [sameWord, decode_word_jump]
  exact .jumpForCall target

/-- The decoder gives the instruction itself or one that shadows it. -/
theorem shadows_decode_word {instruction : Instruction} (formed : instruction.WellFormed)
    (notData : instruction.operation ≠ .data) :
    (decode instruction.word).Shadows instruction := by
  -- Operations without a special pattern above them decode to themselves.
  have same : instruction.selected = instruction.operation →
      (decode instruction.word).Shadows instruction := by
    intro selects
    rw [decode_word_of_selected formed notData selects]
    exact .same instruction
  obtain ⟨operation, operands⟩ := instruction
  unfold WellFormed at formed
  cases operation <;>
    simp only [Operation.shape, fills_filler_iff] at formed
  case data => exact absurd rfl notData
  case halt | nop =>
    cases formed
    exact same (by simp [selected, operationOf])
  case read | write | jumpi =>
    obtain ⟨⟨x⟩, ⟨⟩⟩ := formed
    exact same (by simp [selected, operationOf])
  case loadn | addn | load | store | jeqz | jnez | jgtz | jltz =>
    obtain ⟨⟨x⟩, ⟨⟩, ⟨⟩⟩ := formed
    exact same (by simp [selected, operationOf])
  case loadi | storei =>
    obtain ⟨⟨x⟩, ⟨y⟩, ⟨⟩⟩ := formed
    exact same (by simp [selected, operationOf])
  case neg =>
    obtain ⟨⟨x⟩, fills⟩ := formed
    obtain ⟨⟨y⟩, ⟨⟩⟩ := fills_filler_iff.mp fills
    exact same (by simp [selected, operationOf])
  case mul | div | mod =>
    obtain ⟨⟨x⟩, ⟨y⟩, ⟨z⟩, ⟨⟩⟩ := formed
    exact same (by simp [selected, operationOf])
  case jump =>
    obtain ⟨⟨⟩, ⟨⟩⟩ := formed
    exact same (by simp [selected, operationOf])
  case mov =>
    obtain ⟨⟨x⟩, ⟨y⟩, ⟨⟩⟩ := formed
    exact shadows_decode_word_mov x y
  case add =>
    obtain ⟨⟨x⟩, ⟨y⟩, ⟨z⟩, ⟨⟩⟩ := formed
    by_cases shadowed : z = 0
    · subst shadowed
      exact shadows_decode_word_add x y
    · exact same (by simpa [selected, operationOf] using fun zero => absurd zero shadowed)
  case sub =>
    obtain ⟨⟨x⟩, ⟨y⟩, ⟨z⟩, ⟨⟩⟩ := formed
    by_cases shadowed : y = 0
    · subst shadowed
      exact shadows_decode_word_sub x z
    · exact same (by simpa [selected, operationOf] using shadowed)
  case call =>
    obtain ⟨⟨x⟩, ⟨⟩, ⟨⟩⟩ := formed
    by_cases shadowed : x = 0
    · subst shadowed
      exact shadows_decode_word_call _
    · exact same (by simpa [selected, operationOf] using shadowed)

end Instruction

end MiniatureMachine
