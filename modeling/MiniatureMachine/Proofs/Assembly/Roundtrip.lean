import MiniatureMachine.Proofs.Assembly.Disassembly
import MiniatureMachine.Proofs.Assembly.Token

/-!
Contract: decoding undoes encoding.

Owns:
- the instruction that stands for others with the same word;
- the typed operands that the tokens of a line denote;
- what the encoding of an operation with its operands decodes to, and that it is encoded
  the same again.

Four kinds of instructions have the word of another one that stands before them in the
opcode table. Nothing else is lost on the way through a word.
-/

namespace MiniatureMachine

/-! ## The instruction of a word -/

namespace Instruction

/-- Of the instructions with the same word, the one whose operation is tried first. A sum
with register zero is a copy, and a copy of register zero to itself does nothing. A
difference from register zero is a negation, and a call that is linked to register zero is a
jump. -/
def foremost : Instruction → Instruction
  | ⟨.mov, [.register x, .register y]⟩ =>
      if x = 0 ∧ y = 0 then ⟨.nop, []⟩ else ⟨.mov, [.register x, .register y]⟩
  | ⟨.add, [.register x, .register y, .register z]⟩ =>
      if z = 0 then
        if x = 0 ∧ y = 0 then ⟨.nop, []⟩ else ⟨.mov, [.register x, .register y]⟩
      else
        ⟨.add, [.register x, .register y, .register z]⟩
  | ⟨.sub, [.register x, .register y, .register z]⟩ =>
      if y = 0 then ⟨.neg, [.register x, .register z]⟩
      else ⟨.sub, [.register x, .register y, .register z]⟩
  | ⟨.call, [.register x, .unsigned target]⟩ =>
      if x = 0 then ⟨.jump, [.unsigned target]⟩ else ⟨.call, [.register x, .unsigned target]⟩
  | instruction => instruction

private theorem shadows_foremost (instruction : Instruction) :
    instruction.foremost.Shadows instruction := by
  unfold foremost
  split
  case h_1 x y =>
    split_ifs with zero
    · obtain ⟨rfl, rfl⟩ := zero
      exact .nopForMov
    · exact .same _
  case h_2 x y z =>
    split_ifs with sumZero zero
    · obtain ⟨rfl, rfl⟩ := zero
      subst sumZero
      exact .nopForAdd
    · subst sumZero
      exact .movForAdd x y
    · exact .same _
  case h_3 x y z =>
    split_ifs with zero
    · subst zero
      exact .negForSub x z
    · exact .same _
  case h_4 x target =>
    split_ifs with zero
    · subst zero
      exact .jumpForCall target
    · exact .same _
  case h_5 => exact .same _

namespace Shadows

variable {decoded written : Instruction}

private theorem word_eq (shadows : decoded.Shadows written) : decoded.word = written.word := by
  cases shadows <;> rfl

theorem wellFormed (shadows : decoded.Shadows written) (formed : written.WellFormed) :
    decoded.WellFormed := by
  cases shadows with
  | same => exact formed
  | nopForMov | nopForAdd => exact .nil
  | movForAdd target source =>
      exact .operand (.register target) (.operand (.register source) .nil)
  | negForSub target source =>
      exact .operand (.register target) (.filler (.operand (.register source) .nil))
  | jumpForCall target => exact .filler (.operand (.unsigned target) .nil)

private theorem foremost_eq (shadows : decoded.Shadows written) :
    decoded.foremost = written.foremost := by
  cases shadows <;> simp [foremost]

/-- Nothing but itself stands for an instruction that is the foremost one. -/
theorem eq_of_foremost (shadows : decoded.Shadows written)
    (isForemost : written.foremost = written) : decoded = written := by
  cases shadows with
  | same => rfl
  | nopForMov | nopForAdd => cases isForemost
  | movForAdd =>
      unfold foremost at isForemost
      simp only [if_true] at isForemost
      split at isForemost <;> cases isForemost
  | negForSub | jumpForCall => simp [foremost] at isForemost

end Shadows

/-- The word of an instruction decodes to the foremost instruction with that word. -/
theorem decode_word {instruction : Instruction} (formed : instruction.WellFormed)
    (notData : instruction.operation ≠ .data) : decode instruction.word = instruction.foremost := by
  have shadows := shadows_foremost instruction
  have isForemost : instruction.foremost.foremost = instruction.foremost := shadows.foremost_eq
  have stillNotData : instruction.foremost.operation ≠ .data :=
    fun isData => notData (shadows.operation_of_data isData)
  rw [← shadows.word_eq]
  exact (shadows_decode_word (shadows.wellFormed formed) stillNotData).eq_of_foremost isForemost

end Instruction

/-- A word is no instruction when no row but the last one selects it. -/
theorem classify_eq_data_iff {word : Word} :
    classify word = .data ↔
      ∀ row ∈ opcodeTable, row.operation ≠ .data → row.selects word = false := by
  have table : opcodeTable = opcodeTable.dropLast ++ [catchAllRow] := by decide
  have proper : ∀ row ∈ opcodeTable.dropLast, row.operation ≠ .data := by decide
  have known : ∀ row ∈ opcodeTable.dropLast, row ∈ opcodeTable :=
    fun row member => (List.dropLast_sublist opcodeTable).mem member
  unfold classify
  cases found : opcodeTable.dropLast.find? fun row => row.selects word with
  | none =>
      rw [List.find?_eq_none] at found
      constructor
      · intro isData row member notData
        rw [table, List.mem_append, List.mem_singleton] at member
        rcases member with inFront | rfl
        · simpa using found row inFront
        · exact absurd rfl notData
      · intro unselected
        rw [table, List.find?_append, List.find?_eq_none.mpr found, List.find?_singleton]
        split <;> rfl
  | some row =>
      have inFront := List.mem_of_find?_eq_some found
      have selects : row.selects word = true := by
        simpa using List.find?_some found
      constructor
      · intro isData
        rw [table, List.find?_append, found] at isData
        exact absurd isData (proper row inFront)
      · intro unselected
        rw [unselected row (known row inFront) (proper row inFront)] at selects
        cases selects

namespace Encoding

/-! ## Denoted operands -/

/-- The operand that a token denotes in a slot. A word is denoted by its signed and by its
unsigned number. -/
inductive Denotes : Slot → String → Operand → Prop
  | register {token : String} {number : BitVec 4}
      (names : NamesRegister token.toList number.toNat) :
      Denotes .register token (.register number)
  | signed {token : String} {byte : BitVec 8} (shows : ShowsNumber token.toList byte.toInt) :
      Denotes .signedByte token (.signed byte)
  | unsigned {token : String} {byte : BitVec 8} (shows : ShowsNumber token.toList byte.toNat) :
      Denotes .unsignedByte token (.unsigned byte)
  | whole {token : String} {word : Word} {value : Int} (shows : ShowsNumber token.toList value)
      (stands : value = word.toInt ∨ value = word.toNat) :
      Denotes .word token (.whole word)

/-- The tokens of a line denote its operands, one for each slot but the fillers. -/
inductive DenoteAll : List Slot → List String → List Operand → Prop
  | nil : DenoteAll [] [] []
  | operand {slot : Slot} {token : String} {operand : Operand} {slots : List Slot}
      {tokens : List String} {operands : List Operand} (denotes : Denotes slot token operand)
      (others : DenoteAll slots tokens operands) :
      DenoteAll (slot :: slots) (token :: tokens) (operand :: operands)
  | filler {slots : List Slot} {tokens : List String} {operands : List Operand}
      (others : DenoteAll slots tokens operands) : DenoteAll (.filler :: slots) tokens operands

section Denotation

variable {slot : Slot} {token text : String} {operand other : Operand}

/-- A number that stands for a word is the word's number modulo the capacity. -/
theorem ofInt_of_stands {word : Word} {value : Int}
    (stands : value = word.toInt ∨ value = word.toNat) : BitVec.ofInt 16 value = word := by
  rcases stands with rfl | rfl
  · exact BitVec.ofInt_toInt
  · rw [BitVec.ofInt_natCast, BitVec.ofNat_toNat, BitVec.setWidth_eq]

theorem Denotes.unique (denotes : Denotes slot token operand)
    (denotesOther : Denotes slot token other) : operand = other := by
  cases denotes with
  | register names =>
      cases denotesOther with
      | register names' => rw [BitVec.eq_of_toNat_eq (names.unique names')]
  | signed shows =>
      cases denotesOther with
      | signed shows' => rw [BitVec.eq_of_toInt_eq (shows.unique shows')]
  | unsigned shows =>
      cases denotesOther with
      | unsigned shows' => rw [BitVec.eq_of_toNat_eq (Int.natCast_inj.mp (shows.unique shows'))]
  | whole shows stands =>
      cases denotesOther with
      | whole shows' stands' =>
          rw [shows.unique shows'] at stands
          rw [← ofInt_of_stands stands, ← ofInt_of_stands stands']

theorem DenoteAll.unique {slots : List Slot} {tokens : List String}
    {operands others : List Operand} (denote : DenoteAll slots tokens operands)
    (denoteOthers : DenoteAll slots tokens others) : operands = others := by
  induction denote generalizing others with
  | nil =>
      cases denoteOthers with
      | nil => rfl
  | operand denotes later inductionHypothesis =>
      cases denoteOthers with
      | operand denotes' later' => rw [denotes.unique denotes', inductionHypothesis later']
      | filler => cases denotes
  | filler later inductionHypothesis =>
      cases denoteOthers with
      | operand denotes' => cases denotes'
      | filler later' => exact inductionHypothesis later'

private theorem denotes_of_ofValue? {value : Int} (shows : ShowsNumber token.toList value)
    (stands : Operand.ofValue? slot value = some operand) : Denotes slot token operand := by
  cases slot with
  | register | filler => cases stands
  | signedByte =>
      obtain ⟨reads, ⟨⟩⟩ := Option.ite_none_right_eq_some.mp stands
      exact .signed (by rwa [reads])
  | unsignedByte =>
      obtain ⟨reads, ⟨⟩⟩ := Option.ite_none_right_eq_some.mp stands
      exact .unsigned (by rwa [reads])
  | word =>
      obtain ⟨reads, ⟨⟩⟩ := Option.ite_none_right_eq_some.mp stands
      exact .whole shows (reads.imp Eq.symm Eq.symm)

/-- An accepted token denotes the operand that it shows. -/
theorem denotes_of_written? (accepted : ofToken slot token = .ok text)
    (written : Operand.written? slot token = some operand) : Denotes slot token operand := by
  have takes : slot ≠ .filler := by
    rintro rfl
    obtain ⟨value, -, ⟨⟩⟩ := Option.bind_eq_some_iff.mp written
  have outcome : Outcome slot token (ofToken slot token) := outcome_ofToken takes
  rw [accepted] at outcome
  cases outcome with
  | register isRegister names =>
      subst isRegister
      have fits := names
      obtain ⟨-, -, -, below⟩ := fits
      rw [Operand.written?, register?_eq_some_iff.mpr names] at written
      cases written
      refine .register ?_
      rw [BitVec.toNat_ofNat, Nat.mod_eq_of_lt (by omega)]
      exact names
  | number ranged shows =>
      rw [Operand.written?_of_ne (ne_register_of_range ranged), number?_of_showsNumber shows]
        at written
      exact denotes_of_ofValue? shows written

/-- The tokens of an accepted line denote the operands that they show. -/
theorem denoteAll_of_allWritten? {slots : List Slot} {tokens : List String}
    {operands : List Operand} (accepted : ofTokens slots tokens = .ok text)
    (written : Operand.allWritten? slots tokens = some operands) :
    DenoteAll slots tokens operands := by
  induction slots generalizing tokens text operands with
  | nil =>
      cases tokens with
      | nil =>
          cases written
          exact .nil
      | cons => cases written
  | cons slot slots inductionHypothesis =>
      cases slot with
      | filler =>
          obtain ⟨later, shownLater, -⟩ := Effects.except_bind_eq_ok_iff.mp accepted
          exact .filler (inductionHypothesis shownLater written)
      | register | signedByte | unsignedByte | word =>
          cases tokens with
          | nil => cases written
          | cons token tokens =>
              obtain ⟨first, shown, accepted⟩ := Effects.except_bind_eq_ok_iff.mp accepted
              obtain ⟨later, shownLater, -⟩ := Effects.except_bind_eq_ok_iff.mp accepted
              obtain ⟨operand, isOperand, written⟩ := Option.bind_eq_some_iff.mp written
              obtain ⟨operands, areOperands, ⟨⟩⟩ := Option.bind_eq_some_iff.mp written
              exact .operand (denotes_of_written? shown isOperand)
                (inductionHypothesis shownLater areOperands)

end Denotation

/-! ## There and back -/

def operandText (operands : List Operand) : String :=
  ", ".intercalate (operands.map Operand.text)

private theorem ofOperands_decode (word : Word) :
    ofOperands (Instruction.decode word).operation
      (operandText (Instruction.decode word).operands) = .ok word.layout := by
  have joined : operandText (Instruction.decode word).operands =
      String.ofList (Statement.joined
        ((Instruction.decode word).operands.map fun operand => operand.text.toList)) := by
    rw [← String.toList_inj, operandText, String.toList_intercalate, List.map_map]
    exact String.toList_ofList.symm
  rw [joined, ofOperands_joined (Instruction.wellFormed_decode word), Instruction.word_decode]

end Encoding

namespace Instruction

private theorem decode_eq_data_iff {word : Word} :
    decode word = ⟨.data, [.whole word]⟩ ↔
      ∀ row ∈ opcodeTable, row.operation ≠ .data → row.selects word = false := by
  rw [← classify_eq_data_iff]
  constructor
  · intro isData
    exact congrArg operation isData
  · intro isData
    simp [decode, isData]

/-- The word of a data line is its number modulo the capacity of a word. -/
theorem denotes_data {operands : List Operand} {tokens : List String}
    (formed : (Instruction.mk .data operands).WellFormed)
    (denote : Encoding.DenoteAll (Operation.shape .data) tokens operands) :
    ∃ token value, tokens = [token] ∧ Encoding.ShowsNumber token.toList value ∧
      ((word ⟨.data, operands⟩).toNat : Int) = value % 65536 := by
  cases denote with
  | @operand _ token _ _ _ _ denotes others =>
      cases denotes with
      | @whole _ held value shows stands =>
          cases others with
          | nil =>
              refine ⟨token, value, rfl, shows, ?_⟩
              rw [word_data, ← Encoding.ofInt_of_stands stands, BitVec.toNat_ofInt]
              omega

/-- The word of an accepted line decodes to the foremost instruction of the line. The word
of a data line is its number modulo the capacity, and it stays data when no row of an
instruction selects it. What a word decodes to is encoded as the word. -/
theorem decode_undoes_encoding {operation : Operation} {text line : String}
    (accepted : Encoding.ofOperands operation text = .ok line) :
    ∃ operands word, line = word.layout ∧
      (∀ others, Encoding.DenoteAll operation.shape (Statement.tokens text) others ↔
        others = operands) ∧
      (operation ≠ .data → decode word = foremost ⟨operation, operands⟩) ∧
      (operation = .data →
        (∃ token value, Statement.tokens text = [token] ∧
          Encoding.ShowsNumber token.toList value ∧ (word.toNat : Int) = value % 65536) ∧
        (decode word = ⟨.data, [.whole word]⟩ ↔
          ∀ row ∈ opcodeTable, row.operation ≠ .data → row.selects word = false)) ∧
      Encoding.ofOperands (decode word).operation
        (Encoding.operandText (decode word).operands) = .ok line := by
  obtain ⟨operands, written, formed, rfl⟩ := layout_of_ofOperands accepted
  have denote : Encoding.DenoteAll operation.shape (Statement.tokens text) operands := by
    obtain ⟨-, digits, shown, -⟩ := ofTokens_of_ofOperands accepted
    exact Encoding.denoteAll_of_allWritten? shown written
  refine ⟨operands, word ⟨operation, operands⟩, rfl, ?_, ?_, ?_, Encoding.ofOperands_decode _⟩
  · intro others
    constructor
    · exact fun denoteOthers => denoteOthers.unique denote
    · rintro rfl
      exact denote
  · exact decode_word formed
  · rintro rfl
    exact ⟨denotes_data formed denote, decode_eq_data_iff⟩

/-- A sum with register zero comes back as a copy. -/
theorem zeroSum_comes_back_as_copy :
    ∃ word : Word, word.layout = "0110 0011 0001 0000" ∧
      decode word = ⟨.mov, [.register 3, .register 1]⟩ ∧
      Encoding.ofOperands .mov "r3, r1" = .ok word.layout := by
  obtain ⟨operands, word, layout, denoted, decodes, -, again⟩ :=
    @decode_undoes_encoding .add "R3,r1 R0" "0110 0011 0001 0000" (by decide +kernel)
  have tokens : Statement.tokens "R3,r1 R0" = ["R3", "r1", "R0"] := by decide +kernel
  have denote : Encoding.DenoteAll (Operation.shape .add) (Statement.tokens "R3,r1 R0")
      [.register 3, .register 1, .register 0] := by
    rw [tokens]
    exact .operand (.register ⟨'R', .inr rfl, rfl, by decide⟩)
      (.operand (.register ⟨'r', .inl rfl, rfl, by decide⟩)
        (.operand (.register ⟨'R', .inr rfl, rfl, by decide⟩) .nil))
  obtain rfl := (denoted _).mp denote
  have isCopy : decode word = ⟨.mov, [.register 3, .register 1]⟩ := decodes (by decide)
  rw [isCopy] at again
  exact ⟨word, layout.symm, isCopy, layout ▸ again⟩

end Instruction

end MiniatureMachine
