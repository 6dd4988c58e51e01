import Mathlib.Data.Set.List
import MiniatureMachine.Proofs.Assembly.Written
import MiniatureMachine.Proofs.ImageText

/-!
Contract: an assembled program loads as it was encoded.

Owns:
- the lines of an image text as groups of digits, and the words they hold;
- the encodings of a valid program as such lines;
- what the reader makes of its image text.

The assembler writes digits and never makes a word, and the reader only counts the digits of
a line. The two meet in lines of four groups with four digits each.
-/

namespace MiniatureMachine

/-- A line of an image text: four groups of four digits. -/
structure ImageLine where
  groups : List (List Bool)
  fourGroups : groups.length = 4
  fourDigits : ∀ group ∈ groups, group.length = 4

namespace ImageLine

def text (line : ImageLine) : String :=
  " ".intercalate (line.groups.map BitString.render)

/-- The word that has the sixteen digits of the line. -/
def word (line : ImageLine) : Word :=
  BitVec.ofNat 16 (Bits.value line.groups.flatten)

def ofWord (word : Word) : ImageLine where
  groups := [12, 8, 4, 0].map fun offset => Bits.ofNat 4 (word.toNat >>> offset)
  fourGroups := rfl
  fourDigits := by
    rw [List.forall_mem_map]
    exact fun offset _ => Bits.length_ofNat 4 _

@[simp] theorem text_ofWord (word : Word) : (ofWord word).text = word.layout := by
  rw [text, ofWord, List.map_map]
  rfl

@[simp] theorem word_ofWord (word : Word) : (ofWord word).word = word := by
  have digits : (ofWord word).groups.flatten = Bits.ofNat 16 word.toNat := by
    rw [Bits.ofNat_sixteen]
    simp [ofWord]
  rw [ImageLine.word, digits, Bits.value_ofNat, Nat.mod_eq_of_lt word.isLt, BitVec.ofNat_toNat,
    BitVec.setWidth_eq]

end ImageLine

namespace AssembledProgram

variable {dialect : Dialect} {source : String}

/-- Every line of a valid program is encoded as the layout of a word. -/
theorem exists_layouts_of_isValid (valid : (ofSource dialect source).isValid = true) :
    ∃ words : List Word, (ofSource dialect source).lines.map AssembledLine.encoding =
      words.map fun word => .ok word.layout := by
  rw [isValid, Bool.and_eq_true, List.all_eq_true] at valid
  have layouts : ∀ encoding ∈ (ofSource dialect source).lines.map AssembledLine.encoding,
      encoding ∈ Set.range fun word : Word => Except.ok word.layout := by
    intro encoding member
    obtain ⟨line, lineMember, rfl⟩ := List.mem_map.mp member
    have encoded := valid.2 line lineMember
    obtain ⟨entry, -, rfl⟩ := List.mem_map.mp lineMember
    cases accepted : AssembledLine.encode dialect entry.2 entry.1.text with
    | error error =>
        simp [AssembledLine.ofSource, AssembledLine.isEncoded, accepted] at encoded
    | ok bits =>
        obtain ⟨_, word, -, rfl, -⟩ := Instruction.written?_of_encode accepted
        exact ⟨word, accepted.symm⟩
  have range : (ofSource dialect source).lines.map AssembledLine.encoding ∈
      Set.range (List.map fun word : Word => Except.ok word.layout) := by
    rw [Set.range_list_map]
    exact layouts
  obtain ⟨words, found⟩ := range
  exact ⟨words, found.symm⟩

/-- The texts of lines that have encodings are these. -/
theorem map_text_of_encodings {lines : List AssembledLine} {texts : List String}
    (encoded : lines.map AssembledLine.encoding = texts.map .ok) :
    lines.map AssembledLine.text = texts := by
  have onlyEncodings : lines.map AssembledLine.text =
      (lines.map AssembledLine.encoding).map fun encoding =>
        AssembledLine.text ⟨0, 0, encoding, ""⟩ := by
    rw [List.map_map]
    rfl
  rw [onlyEncodings, encoded, List.map_map]
  exact List.map_id texts

private theorem length_lines_ofSource (dialect : Dialect) (source : String) :
    (ofSource dialect source).lines.length = (SourceLine.program source).length := by
  simp [ofSource, ofLines]

/-- A valid program has an image text with one line of four groups for each of its lines. It
reads back as the words of these lines in their order, unless there are more of them than the
memory holds: then the reader says how many. -/
theorem image_loads_as_encoded (valid : (ofSource dialect source).isValid = true) :
    ∃ (lines : List ImageLine) (text : String),
      (ofSource dialect source).lines.map AssembledLine.encoding =
        lines.map (fun line => .ok line.text) ∧
      lines.length = (SourceLine.program source).length ∧
      (ofSource dialect source).imageText? = some text ∧
      text = String.join (lines.map fun line => line.text ++ "\n") ∧
      ((SourceLine.program source).length ≤ memorySize →
        ∃ image, Image.read text = .ok image ∧
          image.codeSize = (SourceLine.program source).length ∧
          image.words = lines.map fun line => some line.word) ∧
      (memorySize < (SourceLine.program source).length →
        Image.read text = .error (.tooLarge (SourceLine.program source).length)) := by
  obtain ⟨words, encodings⟩ := exists_layouts_of_isValid valid
  have texts : (ofSource dialect source).lines.map AssembledLine.text =
      words.map Word.layout :=
    map_text_of_encodings (encodings.trans List.map_map.symm)
  have counted : words.length = (SourceLine.program source).length := by
    rw [← length_lines_ofSource dialect source]
    simpa using (congrArg List.length texts).symm
  have nonempty : words ≠ [] := by
    rintro rfl
    rw [List.map_nil, List.map_eq_nil_iff] at texts
    simp [isValid, texts] at valid
  have reads := Image.read_write_layouts nonempty
  rw [counted] at reads
  refine ⟨words.map ImageLine.ofWord, Image.write (words.map Word.layout), ?_, ?_, ?_, ?_, ?_, ?_⟩
  · simpa only [List.map_map, Function.comp_def, ImageLine.text_ofWord] using encodings
  · rw [List.length_map, counted]
  · rw [imageText?, if_pos valid, texts]
  · simp only [Image.write, List.map_map, Function.comp_def, ImageLine.text_ofWord]
  · intro fits
    refine ⟨Image.ofWords words, ?_, ?_, ?_⟩
    · rw [reads, if_pos fits]
    · rw [Image.codeSize, Image.ofWords, List.length_map, counted]
    · simp only [Image.ofWords, List.map_map, Function.comp_def, ImageLine.word_ofWord]
  · intro tooMany
    rw [reads, if_neg (Nat.not_le.mpr tooMany)]

/-- A program with an immediate below zero and a word of data. -/
def mixedLines : String :=
  "0 setn r2 -1\n1 data 0x8001\n\n2 halt # end"

theorem mixedLines_load :
    ∃ text image, (ofSource .canonical mixedLines).imageText? = some text ∧
      text = "0001 0010 1111 1111\n1000 0000 0000 0001\n0000 0000 0000 0000\n" ∧
      Image.read text = .ok image ∧ image.codeSize = 3 := by
  have valid : (ofSource .canonical mixedLines).isValid = true := by decide +kernel
  have three : (SourceLine.program mixedLines).length = 3 := by decide +kernel
  have shown : (ofSource .canonical mixedLines).imageText? =
      some "0001 0010 1111 1111\n1000 0000 0000 0001\n0000 0000 0000 0000\n" := by
    decide +kernel
  obtain ⟨_, text, -, -, written, -, loads, -⟩ := image_loads_as_encoded valid
  rw [three] at loads
  obtain ⟨image, reads, size, -⟩ := loads (by decide)
  exact ⟨text, image, written, Option.some.inj (written.symm.trans shown), reads, size⟩

end AssembledProgram

end MiniatureMachine
