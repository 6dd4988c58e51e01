import MiniatureMachine.Proofs.Assembly.Written
import MiniatureMachine.Proofs.ImageText
import MiniatureMachine.Proofs.Machine.Reference

/-!
Contract: assembly keeps the meaning of a program.

Owns:
- the instructions of a source text and the words of their image lines;
- the agreement of the assembled program with the instructions that are written.

A valid program is written, read back and run. The image goes through its text, and
the machine that runs it is compared with one that is given the written instructions.
-/

namespace MiniatureMachine

private theorem AssembledLine.exists_text_of_isEncoded {line : AssembledLine}
    (encoded : line.isEncoded = true) :
    ∃ bits, line.encoding = .ok bits ∧ line.text = bits := by
  unfold isEncoded at encoded
  unfold text
  split at encoded
  · rename_i bits held
    exact ⟨bits, held, rfl⟩
  · cases encoded

namespace AssembledProgram

variable {dialect : Dialect}

/-- Program lines that are all accepted show instructions, and their image lines are
the layouts of words that encode these. -/
theorem encodes_of_encoded {lines : List SourceLine} {first : Nat}
    (encoded : ∀ entry ∈ lines.zipIdx first,
      (AssembledLine.ofSource dialect entry.2 entry.1).isEncoded = true) :
    ∃ words program,
      ((lines.zipIdx first).map fun entry =>
        (AssembledLine.ofSource dialect entry.2 entry.1).text) = words.map Word.layout ∧
      (lines.map fun line => Instruction.written? dialect line.text) = program.map some ∧
      Reference.Encodes words program := by
  induction lines generalizing first with
  | nil => exact ⟨[], [], rfl, rfl, .nil⟩
  | cons line lines inductionHypothesis =>
      rw [List.zipIdx_cons, List.forall_mem_cons] at encoded
      obtain ⟨lineEncoded, laterEncoded⟩ := encoded
      obtain ⟨bits, accepted, shown⟩ := AssembledLine.exists_text_of_isEncoded lineEncoded
      obtain ⟨instruction, word, written, rfl, shadows⟩ :=
        Instruction.written?_of_encode accepted
      obtain ⟨words, program, texts, instructions, encodes⟩ := inductionHypothesis laterEncoded
      refine ⟨word :: words, instruction :: program, ?_, ?_, .cons shadows encodes⟩
      · rw [List.zipIdx_cons, List.map_cons, List.map_cons, texts, shown]
      · rw [List.map_cons, List.map_cons, written, instructions]

/-- The image text of a valid program is that of some words, one for each line. -/
theorem exists_words_of_isValid {source : String}
    (valid : (ofSource dialect source).isValid = true) :
    ∃ words program, words ≠ [] ∧ words.length = (SourceLine.program source).length ∧
      (ofSource dialect source).imageText? = some (Image.write (words.map Word.layout)) ∧
      ((SourceLine.program source).map fun line => Instruction.written? dialect line.text) =
        program.map some ∧
      Reference.Encodes words program := by
  have checks := valid
  rw [isValid, Bool.and_eq_true, Bool.not_eq_true', List.all_eq_true] at checks
  obtain ⟨present, encoded⟩ := checks
  rw [ofSource, ofLines, List.forall_mem_map] at encoded
  obtain ⟨words, program, texts, instructions, encodes⟩ := encodes_of_encoded encoded
  have written : (ofSource dialect source).lines.map AssembledLine.text =
      words.map Word.layout := by
    rw [ofSource, ofLines, List.map_map]
    exact texts
  have counted := congrArg List.length texts
  rw [List.length_map, List.length_map, List.length_zipIdx] at counted
  refine ⟨words, program, ?_, counted.symm, ?_, instructions, encodes⟩
  · rintro rfl
    rw [List.map_nil, List.map_eq_nil_iff] at written
    rw [written] at present
    cases present
  · rw [imageText?, if_pos valid, written]

/-- A valid program of at most 256 lines has an image text that reads back. Every line
shows an instruction, and a machine on the image that nobody debugs agrees with one
that is given these instructions, with every console and after any number of steps. -/
theorem image_keeps_meaning {source : String} (valid : (ofSource dialect source).isValid = true)
    (fits : (SourceLine.program source).length ≤ memorySize) :
    ∃ text image program, (ofSource dialect source).imageText? = some text ∧
      Image.read text = .ok image ∧
      ((SourceLine.program source).map fun line => Instruction.written? dialect line.text) =
        program.map some ∧
      ∀ showNext console count,
        Reference.Follows Reference.Agrees
          (Session.advance count (Session.start image ⟨.disabled, showNext⟩ console))
          (Reference.advance program count (Reference.start image console)) := by
  obtain ⟨words, program, nonempty, counted, written, instructions, encodes⟩ :=
    exists_words_of_isValid valid
  have small : words.length ≤ memorySize := counted ▸ fits
  exact ⟨_, _, program, written, Image.read_write nonempty small, instructions,
    fun showNext console count =>
      Reference.agrees_of_encodes encodes small showNext console count⟩

/-- A source text with two lines that are shadowed: a sum with register zero and a call
without a link. The call leads outside the code. -/
def strayLines : String :=
  "# stray call\n0 setn r1 5\n\n1 add r2, r1, r0\n2 calln r0 0x9 # out"

/-- The stray lines are run as they are written, although their words decode to other
instructions. -/
theorem strayLines_keep_meaning :
    ∃ text image, (ofSource .legacy2012 strayLines).imageText? = some text ∧
      Image.read text = .ok image ∧
      ∀ showNext console count,
        Reference.Follows Reference.Agrees
          (Session.advance count (Session.start image ⟨.disabled, showNext⟩ console))
          (Reference.advance
            [⟨.loadn, [.register 1, .signed 5]⟩,
              ⟨.add, [.register 2, .register 1, .register 0]⟩,
              ⟨.call, [.register 0, .unsigned 9]⟩]
            count (Reference.start image console)) := by
  have valid : (ofSource .legacy2012 strayLines).isValid = true := by decide +kernel
  have fits : (SourceLine.program strayLines).length ≤ memorySize := by decide +kernel
  have lines : ((SourceLine.program strayLines).map fun line =>
      Instruction.written? .legacy2012 line.text) =
        [⟨.loadn, [.register 1, .signed 5]⟩,
          ⟨.add, [.register 2, .register 1, .register 0]⟩,
          ⟨.call, [.register 0, .unsigned 9]⟩].map some := by
    decide +kernel
  obtain ⟨text, image, program, written, reads, instructions, agrees⟩ :=
    image_keeps_meaning valid fits
  obtain rfl : program = _ :=
    List.map_injective_iff.mpr (fun _ _ => Option.some.inj) (instructions.symm.trans lines)
  exact ⟨text, image, written, reads, agrees⟩

end AssembledProgram

end MiniatureMachine
