import MiniatureMachine.Assembly.Program
import MiniatureMachine.Proofs.Effects
import MiniatureMachine.Proofs.Isa.Shadowing

/-!
Contract: the instruction that stands on a program line.

Owns:
- the operand that a token shows in a slot, with exactly the value that is written;
- the instruction of a line: its operation under the spellings of the dialect, and its
  operands;
- what the assembler makes of a line that it accepts.

The written instruction is read off the line without any encoding. The assembler puts
together binary digits instead, and the two meet in the word of the instruction.
-/

namespace MiniatureMachine

/-! ## Written operands -/

namespace Operand

/-- The operand of a slot that stands for a number, if there is one. A whole word may be
meant as a signed or as an unsigned number. -/
def ofValue? (slot : Slot) (number : Int) : Option Operand :=
  match slot with
  | .signedByte =>
      let byte := BitVec.ofInt 8 number
      if byte.toInt = number then some (.signed byte) else none
  | .unsignedByte =>
      let byte := BitVec.ofInt 8 number
      if (byte.toNat : Int) = number then some (.unsigned byte) else none
  | .word =>
      let word := BitVec.ofInt 16 number
      if word.toInt = number ∨ (word.toNat : Int) = number then some (.whole word) else none
  | .register | .filler => none

/-- The operand that a token shows in a slot. -/
def written? (slot : Slot) (token : String) : Option Operand :=
  match slot with
  | .register =>
      (Encoding.register? token.toList).map fun number => .register (BitVec.ofNat 4 number)
  | slot => (Encoding.number? token.toList).bind (ofValue? slot)

def allWritten? : List Slot → List String → Option (List Operand)
  | [], [] => some []
  | [], _ :: _ => none
  | .filler :: slots, tokens => allWritten? slots tokens
  | _ :: _, [] => none
  | slot :: slots, token :: tokens => do
      return (← written? slot token) :: (← allWritten? slots tokens)

end Operand

namespace Instruction

/-- The instruction of an operation with its written operands. A data line stands for
whatever its word decodes to. -/
def ofParts (operation : Operation) (operands : List Operand) : Instruction :=
  match operation, operands with
  | .data, [.whole word] => decode word
  | operation, operands => ⟨operation, operands⟩

/-- The instruction that stands on a program line. -/
def written? (dialect : Dialect) (text : String) : Option Instruction := do
  let statement ← (Statement.parse text).toOption
  let operation ← dialect.resolve? statement.operation
  let operands ← Operand.allWritten? operation.shape (Statement.tokens statement.operands)
  return ofParts operation operands

end Instruction

/-! ## The digits of operands -/

namespace Operand

def digits (operand : Operand) : String :=
  String.ofList (operand.nibbles.flatMap Word.nibbleText)

private theorem digits_register (number : Nat) :
    (register (BitVec.ofNat 4 number)).digits = BitString.render (Bits.ofNat 4 number) := by
  rw [digits, nibbles, List.flatMap_singleton, Word.nibbleText, BitVec.toNat_ofNat,
    Bits.ofNat_mod]
  rfl

theorem flatMap_byte (byte : BitVec 8) :
    [byte.extractLsb' 4 4, byte.extractLsb' 0 4].flatMap Word.nibbleText =
      (Bits.ofNat 8 byte.toNat).map BitString.digitChar := by
  rw [List.flatMap_cons, List.flatMap_singleton, Word.nibbleText_extract,
    Word.nibbleText_extract, ← List.map_append]
  exact congrArg _ (Bits.ofNat_add 4 4 byte.toNat).symm

theorem flatMap_word (word : Word) :
    (whole word).nibbles.flatMap Word.nibbleText =
      (Bits.ofNat 16 word.toNat).map BitString.digitChar := by
  rw [Bits.ofNat_sixteen, nibbles]
  simp only [List.flatMap_cons, List.flatMap_nil, List.append_nil, Word.nibbleText_extract,
    List.map_append]

/-- The operand of a number in the range of its slot has the digits that the assembler
writes. -/
theorem ofValue?_of_inRange {slot : Slot} {number : Int} {range : Int × Int}
    (ranged : slot.range? = some range) (inRange : range.1 ≤ number ∧ number ≤ range.2) :
    ∃ operand, ofValue? slot number = some operand ∧ slot.Takes operand ∧
      operand.digits = BitString.render (Bits.ofInt slot.width number) := by
  obtain ⟨lower, upper⟩ := inRange
  cases slot <;> cases ranged
  case signedByte =>
    have reads : (BitVec.ofInt 8 number).toInt = number := by
      rw [BitVec.toInt_ofInt, Int.bmod_eq_of_le] <;> omega
    refine ⟨.signed (BitVec.ofInt 8 number), if_pos reads, .signed _, ?_⟩
    rw [digits, BitString.render, Slot.width, Bits.ofInt_eq]
    exact congrArg _ (flatMap_byte _)
  case unsignedByte =>
    have reads : ((BitVec.ofInt 8 number).toNat : Int) = number := by
      rw [BitVec.toNat_ofInt]
      omega
    refine ⟨.unsigned (BitVec.ofInt 8 number), if_pos reads, .unsigned _, ?_⟩
    rw [digits, BitString.render, Slot.width, Bits.ofInt_eq]
    exact congrArg _ (flatMap_byte _)
  case word =>
    have reads : (BitVec.ofInt 16 number).toInt = number ∨
        ((BitVec.ofInt 16 number).toNat : Int) = number := by
      by_cases small : number ≤ 32767
      · refine .inl ?_
        rw [BitVec.toInt_ofInt, Int.bmod_eq_of_le] <;> omega
      · refine .inr ?_
        rw [BitVec.toNat_ofInt]
        omega
    refine ⟨.whole (BitVec.ofInt 16 number), if_pos reads, .whole _, ?_⟩
    rw [digits, BitString.render, Slot.width, Bits.ofInt_eq]
    exact congrArg _ (flatMap_word _)

theorem written?_of_ne {slot : Slot} {token : String} (notRegister : slot ≠ .register) :
    written? slot token = (Encoding.number? token.toList).bind (ofValue? slot) := by
  cases slot with
  | register => exact absurd rfl notRegister
  | signedByte | unsignedByte | word | filler => rfl

/-- A token that is accepted in a slot shows an operand, and its digits are those of the
operand. -/
theorem written?_of_ofToken {slot : Slot} {token text : String}
    (accepted : Encoding.ofToken slot token = .ok text) :
    ∃ operand, written? slot token = some operand ∧ slot.Takes operand ∧
      operand.digits = text := by
  unfold Encoding.ofToken at accepted
  split at accepted
  · cases accepted
  split at accepted
  · cases accepted
  split at accepted
  · rename_i isRegister
    subst isRegister
    unfold Encoding.ofRegister at accepted
    split at accepted
    · rename_i number held
      cases accepted
      refine ⟨.register (BitVec.ofNat 4 number), ?_, .register _, digits_register number⟩
      rw [written?, held]
      rfl
    · cases accepted
  · rename_i notRegister
    unfold Encoding.ofNumber at accepted
    split at accepted
    · cases accepted
    split at accepted
    · cases accepted
    · rename_i number held
      split at accepted
      · cases accepted
      · rename_i range ranged
        split at accepted
        · rename_i inRange
          cases accepted
          obtain ⟨operand, shown, takes, digits⟩ := ofValue?_of_inRange ranged inRange
          refine ⟨operand, ?_, takes, digits⟩
          rw [written?_of_ne notRegister, held]
          exact shown
        · cases accepted

private theorem allWritten?_cons {slot : Slot} (takes : slot.takesOperand = true)
    (slots : List Slot)
    (token : String) (tokens : List String) :
    allWritten? (slot :: slots) (token :: tokens) = (do
      return (← written? slot token) :: (← allWritten? slots tokens)) := by
  cases slot with
  | filler => cases takes
  | register | signedByte | unsignedByte | word => rfl

/-- The operands of a line that is accepted are those that its tokens show, and its
digits are the fields of the operands. -/
theorem allWritten?_of_ofTokens {slots : List Slot} {tokens : List String} {text : String}
    (counted : tokens.length = slots.countP Slot.takesOperand)
    (accepted : Encoding.ofTokens slots tokens = .ok text) :
    ∃ operands, allWritten? slots tokens = some operands ∧ Fills slots operands ∧
      text = String.ofList ((fields slots operands).flatMap Word.nibbleText) := by
  induction slots generalizing tokens text with
  | nil =>
      cases tokens with
      | nil =>
          cases accepted
          exact ⟨[], rfl, .nil, rfl⟩
      | cons token tokens => cases counted
  | cons slot slots inductionHypothesis =>
      unfold Encoding.ofTokens at accepted
      split at accepted
      · rename_i takes
        rw [List.countP_cons_of_pos takes] at counted
        cases tokens with
        | nil => cases counted
        | cons token tokens =>
            obtain ⟨first, shown, accepted⟩ := Effects.except_bind_eq_ok_iff.mp accepted
            obtain ⟨later, shownLater, ⟨⟩⟩ := Effects.except_bind_eq_ok_iff.mp accepted
            obtain ⟨operand, isOperand, fits, digits⟩ := written?_of_ofToken shown
            obtain ⟨operands, areOperands, fills, laterDigits⟩ :=
              inductionHypothesis (Nat.succ.inj counted) shownLater
            refine ⟨operand :: operands, ?_, .operand fits fills, ?_⟩
            · rw [allWritten?_cons takes, isOperand, areOperands]
              rfl
            · rw [fields_cons fits, List.flatMap_append, String.ofList_append, ← digits,
                laterDigits]
              rfl
      · rename_i takesNone
        have isFiller : slot = .filler := by
          cases slot <;> first | rfl | exact absurd rfl takesNone
        subst isFiller
        rw [List.countP_cons_of_neg takesNone] at counted
        obtain ⟨later, shownLater, ⟨⟩⟩ := Effects.except_bind_eq_ok_iff.mp accepted
        obtain ⟨operands, areOperands, fills, rfl⟩ := inductionHypothesis counted shownLater
        refine ⟨operands, areOperands, .filler fills, ?_⟩
        rw [Operand.fields, List.flatMap_cons, String.ofList_append]
        rfl

end Operand

/-! ## Accepted lines -/

namespace Instruction

theorem ofList_nibbles (operation : Operation) (operands : List Operand) :
    String.ofList ((nibbles ⟨operation, operands⟩).flatMap Word.nibbleText) =
      (if operation.origin = 16 then "" else "0000") ++
        String.ofList ((Operand.fields operation.shape operands).flatMap Word.nibbleText) := by
  unfold nibbles
  split
  · rfl
  · rw [List.flatMap_append, String.ofList_append]
    rfl

/-- An accepted line has as many tokens as its operation takes operands, and its digits are
put into the template of the operation. -/
theorem ofTokens_of_ofOperands {operation : Operation} {text line : String}
    (accepted : Encoding.ofOperands operation text = .ok line) :
    (Statement.tokens text).length = operation.operandCount ∧
      ∃ digits, Encoding.ofTokens operation.shape (Statement.tokens text) = .ok digits ∧
        line = Encoding.insert operation.template
          ((if operation.origin = 16 then "" else "0000") ++ digits) := by
  unfold Encoding.ofOperands at accepted
  by_cases counted : (Statement.tokens text).length = operation.operandCount
  · rw [if_neg (Decidable.not_not.mpr counted)] at accepted
    obtain ⟨digits, shown, inserted⟩ := Effects.except_bind_eq_ok_iff.mp accepted
    exact ⟨counted, digits, shown, (Except.ok.inj inserted).symm⟩
  · rw [if_pos counted] at accepted
    cases accepted

/-- A line that is accepted is the layout of the word of its instruction. -/
theorem layout_of_ofOperands {operation : Operation} {text line : String}
    (accepted : Encoding.ofOperands operation text = .ok line) :
    ∃ operands, Operand.allWritten? operation.shape (Statement.tokens text) = some operands ∧
      (Instruction.mk operation operands).WellFormed ∧
      line = (word ⟨operation, operands⟩).layout := by
  obtain ⟨counted, digits, shown, rfl⟩ := ofTokens_of_ofOperands accepted
  obtain ⟨operands, areOperands, fills, rfl⟩ := Operand.allWritten?_of_ofTokens counted shown
  refine ⟨operands, areOperands, fills, ?_⟩
  rw [← ofList_nibbles]
  exact Encoding.insert_layout _ (WellFormed.length_nibbles fills)

theorem word_data (word : Word) : Instruction.word ⟨.data, [.whole word]⟩ = word := by
  calc Instruction.word ⟨.data, [.whole word]⟩
      = 0 ||| Word.ofLeading (Operand.whole word).nibbles := rfl
    _ = Word.ofLeading (Operand.whole word).nibbles := BitVec.zero_or
    _ = word := Word.ofNibbles_extract word

theorem ofParts_of_ne_data {operation : Operation} (notData : operation ≠ .data)
    (operands : List Operand) : ofParts operation operands = ⟨operation, operands⟩ := by
  unfold ofParts
  split
  · exact absurd rfl notData
  · rfl

/-- The word of a data line decodes to the written instruction, and that of any other
line to the written instruction or to one that shadows it. -/
theorem shadows_ofParts {operation : Operation} {operands : List Operand}
    (formed : (Instruction.mk operation operands).WellFormed) :
    (decode (word ⟨operation, operands⟩)).Shadows (ofParts operation operands) := by
  by_cases isData : operation = .data
  · subst isData
    obtain ⟨⟨⟩, ⟨⟩⟩ : Fills [.word] operands := formed
    rw [word_data]
    exact .same _
  · rw [ofParts_of_ne_data isData]
    exact shadows_decode_word formed isData

/-- What the assembler makes of a line that it accepts. -/
theorem written?_of_encode {dialect : Dialect} {index : Nat} {text line : String}
    (encoded : AssembledLine.encode dialect index text = .ok line) :
    ∃ instruction word, written? dialect text = some instruction ∧ line = word.layout ∧
      (decode word).Shadows instruction := by
  unfold AssembledLine.encode at encoded
  obtain ⟨statement, parsed, encoded⟩ := Effects.except_bind_eq_ok_iff.mp encoded
  split at encoded
  · cases encoded
  · rename_i operation resolved
    obtain ⟨bits, accepted, encoded⟩ := Effects.except_bind_eq_ok_iff.mp encoded
    split at encoded
    · cases encoded
      obtain ⟨operands, areOperands, formed, rfl⟩ := layout_of_ofOperands accepted
      refine ⟨ofParts operation operands, _, ?_, rfl, shadows_ofParts formed⟩
      unfold written?
      rw [parsed]
      simp only [Except.toOption, Option.bind_eq_bind, Option.bind_some, resolved, areOperands]
      rfl
    · cases encoded

end Instruction

end MiniatureMachine
