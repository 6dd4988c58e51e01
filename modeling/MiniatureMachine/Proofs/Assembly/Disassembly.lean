import Mathlib.Tactic.SplitIfs
import MiniatureMachine.Proofs.Assembly.Printed
import MiniatureMachine.Proofs.Assembly.Token
import MiniatureMachine.Proofs.Assembly.Written
import MiniatureMachine.Proofs.ImageText

/-!
Contract: disassembly and assembly undo each other.

Owns:
- the encoding of printed operands;
- the word of a decoded instruction;
- the source text of a list of words, and the round trip through it.

The decoder gives every word operands that fill its operation's slots, and the word of
the decoded instruction is the word itself. The rest is that printed operands, lines and
texts are read as what they were printed from.
-/

namespace MiniatureMachine

/-! ## Printed operands -/

namespace Bits

theorem ofInt_toInt {width : Nat} (bits : BitVec width) :
    ofInt width bits.toInt = ofNat width bits.toNat := by
  rw [ofInt_eq, BitVec.ofInt_toInt]

private theorem ofInt_toNat {width : Nat} (bits : BitVec width) :
    ofInt width (bits.toNat : Int) = ofNat width bits.toNat := by
  rw [ofInt_eq, BitVec.ofInt_natCast, BitVec.ofNat_toNat, BitVec.setWidth_eq]

end Bits

namespace Encoding

/-- What the token readers see in a numeral: decimal digits, and perhaps a minus sign. -/
theorem numeral_cases (number : Int) :
    ∃ digits, Text.isDecimal digits = true ∧
      ((toString number).toList = digits ∨ (toString number).toList = '-' :: digits) := by
  rcases Text.toString_int_cases number with ⟨magnitude, -, shown⟩ | ⟨magnitude, -, shown⟩
  · exact ⟨_, Text.isDecimal_toString magnitude, .inl shown⟩
  · exact ⟨_, Text.isDecimal_toString magnitude, .inr shown⟩

theorem isToken_numeral (number : Int) : Statement.IsToken (toString number).toList := by
  obtain ⟨digits, decimal, shown⟩ := numeral_cases number
  obtain ⟨present, areDigits⟩ := Text.digits_of_isDecimal decimal
  have known : ∀ c ∈ digits, Statement.isOperandChar c = true := by
    intro c member
    simp [Statement.isOperandChar, Text.isHexDigit, areDigits c member]
  rcases shown with shown | shown
  · rw [shown]
    exact ⟨present, known⟩
  · rw [shown]
    exact ⟨List.cons_ne_nil _ _, List.forall_mem_cons.mpr ⟨by decide, known⟩⟩

private theorem showsNumber_toString (number : Int) :
    ShowsNumber (toString number).toList number := by
  rcases Text.toString_int_cases number with ⟨magnitude, rfl, shown⟩ | ⟨magnitude, rfl, shown⟩
  · rw [shown]
    exact .decimal (Text.numeral_toString magnitude)
  · rw [shown]
    exact .negative (Text.numeral_toString magnitude)

/-- A numeral in the range of a slot has the digits of its number. -/
theorem ofToken_numeral {slot : Slot} {number : Int} {range : Int × Int}
    (ranged : slot.range? = some range) (inRange : range.1 ≤ number ∧ number ≤ range.2) :
    ofToken slot (toString number) = .ok (BitString.render (Bits.ofInt slot.width number)) := by
  rw [ofToken_of_showsNumber ranged (showsNumber_toString number), if_pos inRange]

end Encoding

namespace Slot.Takes

open Encoding

variable {slot : Slot} {operand : Operand}

/-- The digits of an operand that is a number are those of the number. -/
theorem digits_eq_render (takes : slot.Takes operand) (numeric : slot ≠ .register) :
    operand.digits = BitString.render (Bits.ofInt slot.width operand.value) := by
  cases takes with
  | register => exact absurd rfl numeric
  | signed byte =>
      rw [Operand.value, Slot.width, Bits.ofInt_toInt]
      exact congrArg String.ofList (Operand.flatMap_byte byte)
  | unsigned byte =>
      rw [Operand.value, Slot.width, Bits.ofInt_toNat]
      exact congrArg String.ofList (Operand.flatMap_byte byte)
  | whole word =>
      rw [Operand.value, Slot.width, Bits.ofInt_toNat]
      exact congrArg String.ofList (Operand.flatMap_word word)

private theorem value_inRange (takes : slot.Takes operand) (numeric : slot ≠ .register) :
    ∃ range, slot.range? = some range ∧ range.1 ≤ operand.value ∧ operand.value ≤ range.2 := by
  cases takes with
  | register => exact absurd rfl numeric
  | signed byte =>
      have lower := BitVec.le_toInt byte
      have upper := @BitVec.toInt_lt 8 byte
      refine ⟨_, rfl, ?_⟩
      show (-128 : Int) ≤ byte.toInt ∧ byte.toInt ≤ 127
      omega
  | unsigned byte =>
      have upper := byte.isLt
      refine ⟨_, rfl, ?_⟩
      show (0 : Int) ≤ byte.toNat ∧ (byte.toNat : Int) ≤ 255
      omega
  | whole word =>
      have upper := word.isLt
      refine ⟨_, rfl, ?_⟩
      show (-32768 : Int) ≤ word.toNat ∧ (word.toNat : Int) ≤ 65535
      omega

private theorem ofToken_text (takes : slot.Takes operand) :
    ofToken slot operand.text = .ok operand.digits := by
  by_cases isRegister : slot = .register
  · subst isRegister
    obtain ⟨number⟩ := takes
    -- A numeral of one digit or two: all sixteen are tried.
    revert number
    decide +kernel
  · obtain ⟨range, ranged, inRange⟩ := takes.value_inRange isRegister
    have numeral : operand.text = toString operand.value := by
      cases takes with
      | register => exact absurd rfl isRegister
      | signed | unsigned | whole => rfl
    rw [numeral, ofToken_numeral ranged inRange, takes.digits_eq_render isRegister]

private theorem isToken_text (takes : slot.Takes operand) :
    Statement.IsToken operand.text.toList := by
  cases takes with
  | register number =>
      have numeral := isToken_numeral number.toNat
      have shown : (Operand.register number).text.toList =
          'r' :: (toString (number.toNat : Int)).toList := by
        show ("r" ++ Nat.repr number.toNat).toList = _
        rw [String.toList_append]
        rfl
      rw [shown]
      exact ⟨List.cons_ne_nil _ _, List.forall_mem_cons.mpr ⟨by decide, numeral.known⟩⟩
  | signed byte => exact isToken_numeral byte.toInt
  | unsigned byte => exact isToken_numeral byte.toNat
  | whole word => exact isToken_numeral word.toNat

end Slot.Takes

namespace Encoding

variable {slots : List Slot} {operands : List Operand}

private theorem ofTokens_text (fills : Fills slots operands) :
    ofTokens slots (operands.map Operand.text) =
      .ok (String.ofList ((Operand.fields slots operands).flatMap Word.nibbleText)) := by
  induction fills with
  | nil => rfl
  | @operand slot operand slots operands takes fills inductionHypothesis =>
      have takesOperand : slot.takesOperand = true := by
        cases takes <;> rfl
      unfold ofTokens
      rw [if_pos takesOperand, List.map_cons, Operand.fields_cons takes, List.flatMap_append,
        String.ofList_append]
      dsimp only
      rw [takes.ofToken_text, inductionHypothesis]
      rfl
  | filler fills inductionHypothesis =>
      unfold ofTokens
      rw [if_neg (by decide), inductionHypothesis, Operand.fields, List.flatMap_cons,
        String.ofList_append]
      rfl

private theorem length_of_fills (fills : Fills slots operands) :
    operands.length = slots.countP Slot.takesOperand := by
  induction fills with
  | nil => rfl
  | operand takes fills inductionHypothesis =>
      rw [List.length_cons, inductionHypothesis, List.countP_cons_of_pos]
      cases takes <;> rfl
  | filler fills inductionHypothesis =>
      rw [inductionHypothesis, List.countP_cons_of_neg (by decide)]

private theorem isToken_of_fills (fills : Fills slots operands) :
    ∀ token ∈ operands.map fun operand => operand.text.toList, Statement.IsToken token := by
  induction fills with
  | nil => exact nofun
  | operand takes fills inductionHypothesis =>
      exact List.forall_mem_cons.mpr ⟨takes.isToken_text, inductionHypothesis⟩
  | filler fills inductionHypothesis => exact inductionHypothesis

/-- The operand text of an instruction is encoded as its word. -/
theorem ofOperands_joined {instruction : Instruction} (formed : instruction.WellFormed) :
    ofOperands instruction.operation (String.ofList
        (Statement.joined (instruction.operands.map fun operand => operand.text.toList))) =
      .ok instruction.word.layout := by
  have tokens : Statement.tokens (String.ofList
      (Statement.joined (instruction.operands.map fun operand => operand.text.toList))) =
        instruction.operands.map Operand.text := by
    rw [Statement.tokens_joined (isToken_of_fills formed), List.map_map]
    exact List.map_congr_left fun operand member => String.ofList_toList
  have counted : (instruction.operands.map Operand.text).length =
      instruction.operation.operandCount :=
    (List.length_map _).trans (length_of_fills formed)
  unfold ofOperands
  simp only [tokens, counted, ne_eq, not_true_eq_false, if_false, ofTokens_text formed]
  show Except.ok _ = _
  rw [← Instruction.ofList_nibbles]
  exact congrArg Except.ok (insert_layout _ formed.length_nibbles)

end Encoding

/-! ## Decoded instructions -/

namespace Instruction

open Word

private theorem fills_operands (word : Word) (top : Nat) (slots : List Slot) :
    Fills slots (word.operands top slots) := by
  induction slots generalizing top with
  | nil => exact .nil
  | cons slot slots inductionHypothesis =>
      have later := inductionHypothesis (top - slot.width)
      cases slot with
      | register => exact .operand (.register _) later
      | signedByte => exact .operand (.signed _) later
      | unsignedByte => exact .operand (.unsigned _) later
      | word => exact .operand (.whole _) later
      | filler => exact .filler later

theorem wellFormed_decode (word : Word) : (decode word).WellFormed :=
  fills_operands word _ _

private theorem word_of_operationOf {a b c d : BitVec 4} {operation : Operation}
    (selects : operationOf a b c d = operation) (notData : operation ≠ .data) :
    word ⟨operation, (ofNibbles a b c d).operands operation.origin operation.shape⟩ =
      ofNibbles a b c d := by
  have upper : (c ++ d).extractLsb' 4 4 = c := BitVec.extractLsb'_append_eq_left
  have lower : (c ++ d).extractLsb' 0 4 = d := BitVec.extractLsb'_append_eq_right
  rw [word_eq_ofNibbles notData]
  -- With the first nibble given, the others are compared one after the other.
  rcases nibble_cases a with rfl | rfl | rfl | rfl | rfl | rfl | rfl | rfl | rfl | rfl |
    rfl | rfl | rfl | rfl | rfl | rfl
  all_goals
    simp [operationOf] at selects
    try split_ifs at selects
  all_goals
    subst selects
    simp_all

/-- Decoding loses nothing. -/
theorem word_decode (word : Word) : (decode word).word = word := by
  by_cases isData : classify word = .data
  · have whole : decode word = ⟨.data, [.whole word]⟩ := by
      simp [decode, isData]
    rw [whole, word_data]
  · obtain ⟨a, b, c, d, rfl⟩ := exists_ofNibbles word
    rw [classify_ofNibbles] at isData
    rw [decode_ofNibbles]
    exact word_of_operationOf rfl isData

end Instruction

namespace Operation

private theorem name_ne_nil (operation : Operation) : operation.name.toList ≠ [] := by
  cases operation <;> decide

private theorem name_isLower (operation : Operation) :
    operation.name.toList.all Char.isLower = true := by
  cases operation <;> decide

private theorem resolve?_name (operation : Operation) :
    Dialect.canonical.resolve? operation.name = some operation := by
  cases operation <;> decide

end Operation

/-! ## Source texts -/

namespace Disassembly

def line (index : Nat) (word : Word) : String :=
  toString index ++ " " ++ disassemble word

/-- The source text of words, with a newline at its end or without. -/
def source (words : List Word) (closed : Bool) : String :=
  "\n".intercalate (words.zipIdx.map fun entry => line entry.2 entry.1) ++
    if closed then "\n" else ""

def parts (index : Nat) (word : Word) : Statement.Parts where
  number := (toString index).toList
  name := (classify word).name.toList
  tokens := (Instruction.decode word).operands.map fun operand => operand.text.toList
  numbered := Text.toList_toString_ne_nil index
  digits := fun _ member => Text.isDigit_of_mem_toString member
  named := (classify word).name_ne_nil
  lower := List.all_eq_true.mp (classify word).name_isLower
  areTokens := Encoding.isToken_of_fills (Instruction.wellFormed_decode word)

private theorem toList_text (instruction : Instruction) :
    instruction.text.toList = instruction.operation.name.toList ++
      Statement.tail (instruction.operands.map fun operand => operand.text.toList) := by
  obtain ⟨operation, operands⟩ := instruction
  cases operands with
  | nil => exact (List.append_nil _).symm
  | cons operand operands =>
      show (operation.name ++ " " ++
        ", ".intercalate ((operand :: operands).map Operand.text)).toList = _
      rw [String.toList_append, String.toList_append, String.toList_intercalate, List.map_map,
        List.append_assoc]
      rfl

theorem toList_line (index : Nat) (word : Word) :
    (line index word).toList = (parts index word).line := by
  rw [line, disassemble, String.toList_append, String.toList_append, toList_text,
    List.append_assoc]
  rfl

private theorem encode_line (index : Nat) (word : Word) :
    AssembledLine.encode .canonical index (line index word) = .ok word.layout := by
  have parsed := (parts index word).parse_line
  rw [← toList_line, String.ofList_toList] at parsed
  have encoded : Encoding.ofOperands (classify word)
      (String.ofList (Statement.joined (parts index word).tokens)) = .ok word.layout := by
    conv_rhs => rw [← Instruction.word_decode word]
    exact Encoding.ofOperands_joined (Instruction.wellFormed_decode word)
  have numbered : Text.decimal? (String.ofList (parts index word).number).toList = some index := by
    rw [String.toList_ofList]
    exact Text.decimal?_toString index
  have named : Dialect.canonical.resolve? (String.ofList (parts index word).name) =
      some (classify word) := by
    rw [← Operation.resolve?_name, parts, String.ofList_toList]
  unfold AssembledLine.encode
  simp only [parsed, bind, Except.bind, named, encoded, numbered, if_true]
  rfl

def assembled (index : Nat) (word : Word) : AssembledLine where
  index := index
  sourceLine := index + 1
  encoding := .ok word.layout
  source := line index word

theorem ofLine?_line (index number : Nat) (word : Word) :
    SourceLine.ofLine? number (line index word).toList = some ⟨line index word, number⟩ := by
  rw [toList_line, Statement.Parts.ofLine?_line, ← toList_line, String.ofList_toList]

private theorem ofSource_line (index number : Nat) (word : Word) :
    AssembledLine.ofSource .canonical index ⟨line index word, number⟩ =
      ⟨index, number, .ok word.layout, line index word⟩ := by
  rw [AssembledLine.ofSource, encode_line]

-- The source lines, the program lines and the assembled lines are numbered in step, so the
-- induction is on the words with the first number general.
theorem assembled_lines (words : List Word) (first : Nat) :
    (((((words.zipIdx first).map fun entry => (line entry.2 entry.1).toList).zipIdx
        first).filterMap fun entry => SourceLine.ofLine? (entry.2 + 1) entry.1).zipIdx first).map
      (fun entry => AssembledLine.ofSource .canonical entry.2 entry.1) =
        (words.zipIdx first).map fun entry => assembled entry.2 entry.1 := by
  induction words generalizing first with
  | nil => rfl
  | cons word words inductionHypothesis =>
      have later := inductionHypothesis (first + 1)
      rw [List.zipIdx_cons, List.map_cons, List.zipIdx_cons, List.filterMap_cons]
      simp only [ofLine?_line]
      rw [List.zipIdx_cons, List.map_cons, later, ofSource_line]
      rfl

private theorem lines_source {words : List Word} (nonempty : words ≠ []) (closed : Bool) :
    Text.lines (source words closed).toList =
      words.zipIdx.map fun entry => (line entry.2 entry.1).toList := by
  have areLines : ∀ text ∈ words.zipIdx.map fun entry => (line entry.2 entry.1).toList,
      Text.IsLine text := by
    rw [List.forall_mem_map]
    intro entry member
    rw [toList_line]
    exact (parts entry.2 entry.1).isLine_line
  have present : (words.zipIdx.map fun entry => (line entry.2 entry.1).toList) ≠ [] := by
    simpa using nonempty
  rw [source, String.toList_append, String.toList_intercalate, List.map_map]
  cases closed with
  | false => exact Text.lines_intercalate areLines (.inl rfl)
  | true => exact Text.lines_intercalate areLines (.inr ⟨present, rfl⟩)

private theorem ofSource_source {words : List Word} (nonempty : words ≠ []) (closed : Bool) :
    AssembledProgram.ofSource .canonical (source words closed) =
      ⟨words.zipIdx.map fun entry => assembled entry.2 entry.1⟩ := by
  rw [AssembledProgram.ofSource, AssembledProgram.ofLines, SourceLine.program,
    lines_source nonempty closed, assembled_lines]

/-- The source text of words assembles without a diagnostic, its image text is that of
the layouts of the words, and the image text reads back as the words. -/
theorem source_assembles_back {words : List Word} (nonempty : words ≠ [])
    (fits : words.length ≤ memorySize) (closed : Bool) :
    (AssembledProgram.ofSource .canonical (source words closed)).diagnostics = [] ∧
      (AssembledProgram.ofSource .canonical (source words closed)).imageText? =
        some (Image.write (words.map Word.layout)) ∧
      Image.read (Image.write (words.map Word.layout)) = .ok (Image.ofWords words) := by
  refine ⟨?_, ?_, Image.read_write nonempty fits⟩
  · rw [ofSource_source nonempty, AssembledProgram.diagnostics, List.filterMap_map,
      List.filterMap_eq_nil_iff]
    intro entry member
    rfl
  · have texts : (words.zipIdx.map fun entry => assembled entry.2 entry.1).map
        AssembledLine.text = words.map Word.layout := by
      calc (words.zipIdx.map fun entry => assembled entry.2 entry.1).map AssembledLine.text
          = (words.zipIdx.map Prod.fst).map Word.layout := by
            rw [List.map_map, List.map_map]
            rfl
        _ = words.map Word.layout := by rw [List.zipIdx_map_fst]
    have valid : AssembledProgram.isValid
        ⟨words.zipIdx.map fun entry => assembled entry.2 entry.1⟩ = true := by
      rw [AssembledProgram.isValid, Bool.and_eq_true, List.all_map, List.all_eq_true]
      refine ⟨by simpa using nonempty, ?_⟩
      intro entry member
      rfl
    rw [ofSource_source nonempty, AssembledProgram.imageText?, if_pos valid, texts]

/-- A copy, a sum, a negation, a negative number, a jump, and two words that are no
instructions. -/
def oddWords : List Word :=
  [0x6120, 0x6121, 0x7203, 0x119C, 0xB0FF, 0x0004, 0x400F]

theorem oddWords_assemble_back :
    source oddWords true =
        "0 mov r1, r2\n1 add r1, r2, r1\n2 neg r2, r3\n3 loadn r1, -100\n4 jump 255\n" ++
          "5 data 4\n6 data 16399\n" ∧
      (AssembledProgram.ofSource .canonical (source oddWords true)).imageText? =
        some (Image.write (oddWords.map Word.layout)) ∧
      Image.read (Image.write (oddWords.map Word.layout)) = .ok (Image.ofWords oddWords) := by
  obtain ⟨-, assembles, reads⟩ :=
    @source_assembles_back oddWords (by decide) (by decide) true
  exact ⟨by decide +kernel, assembles, reads⟩

end Disassembly

end MiniatureMachine
