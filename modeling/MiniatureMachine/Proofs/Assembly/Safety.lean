import MiniatureMachine.Proofs.Assembly.Meaning

/-!
Contract: an assembled program does not go wrong.

Owns:
- the operation that is written on a program line;
- the faults that no machine on an assembled image has.

An assembled image has no malformed cell. A word that is no instruction can only stand
there where the source asks for it, on a `data` line, and the legacy dialect has none.
-/

namespace MiniatureMachine

open Effects

def SourceLine.operation? (dialect : Dialect) (line : SourceLine) : Option Operation := do
  let statement ← (Statement.parse line.text).toOption
  dialect.resolve? statement.operation

variable {dialect : Dialect}

private theorem Dialect.resolve?_legacy2012_ne_data (spelling : String) :
    legacy2012.resolve? spelling ≠ some .data := by
  intro resolved
  have known : ∀ entry ∈ legacySpellings, entry.2 ≠ .data := by decide
  obtain ⟨earlier, later, split, -⟩ := List.lookup_eq_some_iff.mp resolved
  have member : (spelling, Operation.data) ∈ legacySpellings := by
    show _ ∈ legacy2012.table
    simp [split]
  exact known _ member rfl

private theorem SourceLine.operation?_legacy2012_ne_data (line : SourceLine) :
    line.operation? .legacy2012 ≠ some .data := by
  intro named
  obtain ⟨statement, -, resolved⟩ := Option.bind_eq_some_iff.mp named
  exact Dialect.resolve?_legacy2012_ne_data _ resolved

/-- Only a data line stands for a word that is no instruction. -/
theorem SourceLine.operation?_of_written? {line : SourceLine} {instruction : Instruction}
    (written : Instruction.written? dialect line.text = some instruction)
    (isData : instruction.operation = .data) : line.operation? dialect = some .data := by
  obtain ⟨statement, parsed, written⟩ := Option.bind_eq_some_iff.mp written
  obtain ⟨operation, resolved, written⟩ := Option.bind_eq_some_iff.mp written
  obtain ⟨operands, -, ⟨⟩⟩ := Option.bind_eq_some_iff.mp written
  have named : line.operation? dialect = some operation := by
    simp only [operation?, parsed, Option.bind_eq_bind, Option.bind_some, resolved]
  by_cases same : operation = .data
  · rw [named, same]
  · rw [Instruction.ofParts_of_ne_data same] at isData
    exact absurd isData same

namespace AssembledProgram

/-- A valid program of at most 256 lines has an image text that reads back, and no step
of a machine on the image meets a malformed cell, whatever the options and the consoles
are and however many steps came before. A step meets an invalid opcode only where a
program line says `data`, and never in a program of the legacy dialect. -/
theorem image_does_not_go_wrong {source : String}
    (valid : (ofSource dialect source).isValid = true)
    (fits : (SourceLine.program source).length ≤ memorySize) :
    ∃ text image, (ofSource dialect source).imageText? = some text ∧
      Image.read text = .ok image ∧
      ∀ options session fault after, Session.Reachable image options session →
        Session.step session = .error fault after →
        (∀ pc, fault.cause ≠ .badInstruction pc) ∧
          (∀ pc, fault.cause = .invalidOpcode pc → pc = session.state.pc ∧
            ∃ line, (SourceLine.program source)[pc]? = some line ∧
              line.operation? dialect = some .data) ∧
          (dialect = .legacy2012 → ∀ pc, fault.cause ≠ .invalidOpcode pc) := by
  obtain ⟨words, program, nonempty, counted, written, instructions, encodes⟩ :=
    exists_words_of_isValid valid
  refine ⟨_, .ofWords words, written, Image.read_write nonempty (counted ▸ fits), ?_⟩
  intro options session fault after reached failed
  have sound := reached.soundFor
  have onDataLine : ∀ pc, fault.cause = .invalidOpcode pc → pc = session.state.pc ∧
      ∃ line, (SourceLine.program source)[pc]? = some line ∧
        line.operation? dialect = some .data := by
    intro pc invalid
    obtain ⟨rfl, inCode, word, held, isData⟩ := Session.data_of_step failed invalid
    obtain ⟨word', instruction, held', inProgram, shadows⟩ := encodes.fetches sound inCode
    obtain rfl : word = word' := by
      rw [held] at held'
      cases held'
      rfl
    have atLine := congrArg (fun lines => lines[session.state.pc]?) instructions
    simp only [List.getElem?_map, inProgram, Option.map_some] at atLine
    obtain ⟨line, found, shown⟩ := Option.map_eq_some_iff.mp atLine
    exact ⟨rfl, line, found,
      SourceLine.operation?_of_written? shown (shadows.operation_of_data isData)⟩
  refine ⟨?_, onDataLine, ?_⟩
  · intro pc malformed
    obtain ⟨inCode, unreadable⟩ := Session.malformed_of_step failed malformed
    obtain ⟨word, -, held, -⟩ := encodes.fetches sound inCode
    exact unreadable word held
  · rintro rfl pc invalid
    obtain ⟨-, line, -, named⟩ := onDataLine pc invalid
    exact line.operation?_legacy2012_ne_data named

/-- A source text whose second line is a word that is no instruction. -/
def strayData : String :=
  "0 nop\n1 data 12 # no instruction"

def strayDataImage : Image :=
  ⟨[some 0x6000, some 0x000C]⟩

def strayDataSession : Session :=
  left (Session.step (Session.start strayDataImage ⟨.disabled, true⟩ (.start [] .calm)))

/-- The stray data has an invalid opcode, on the line that asks for it. -/
theorem strayData_faults_on_data_line :
    ∃ fault line, outcome (Session.step strayDataSession) = .error fault ∧
      fault.cause = .invalidOpcode 1 ∧ (SourceLine.program strayData)[1]? = some line ∧
      line.operation? .canonical = some .data := by
  have valid : (ofSource .canonical strayData).isValid = true := by decide +kernel
  have fits : (SourceLine.program strayData).length ≤ memorySize := by decide +kernel
  obtain ⟨text, image, written, reads, safe⟩ := image_does_not_go_wrong valid fits
  have known : (ofSource .canonical strayData).imageText? =
      some "0110 0000 0000 0000\n0000 0000 0000 1100\n" := by
    decide +kernel
  have loaded : Image.read "0110 0000 0000 0000\n0000 0000 0000 1100\n" = .ok strayDataImage := by
    decide +kernel
  obtain rfl : text = _ := Option.some.inj (written.symm.trans known)
  obtain rfl : image = _ := Except.ok.inj (reads.symm.trans loaded)
  have retires : outcome (Session.step
      (Session.start strayDataImage ⟨.disabled, true⟩ (.start [] .calm))) = .ok .retired := by
    decide +kernel
  have reached : Session.Reachable strayDataImage ⟨.disabled, true⟩ strayDataSession :=
    .step (.start _) (eq_ok_of_outcome retires)
  have faults : outcome (Session.step strayDataSession) =
      .error ⟨.invalidOpcode 1, some (.ofWord 1 0x000C)⟩ := by
    decide +kernel
  obtain ⟨-, onDataLine, -⟩ := safe _ _ _ _ reached (eq_error_of_outcome faults)
  obtain ⟨-, line, found, named⟩ := onDataLine 1 rfl
  exact ⟨_, line, faults, rfl, found, named⟩

end AssembledProgram

end MiniatureMachine
