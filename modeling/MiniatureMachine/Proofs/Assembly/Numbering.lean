import Mathlib.Data.List.Infix
import MiniatureMachine.Assembly.Program
import MiniatureMachine.Proofs.Assembly.Written

/-!
Contract: line numbers tell every line that is out of its place.

Owns:
- the encoding of a line at its own place and at any other;
- the lines, the validity and the diagnostics of a program by the places of its lines;
- programs put together from the lines of a valid program.

A line is encoded without a look at its neighbours, and its place matters only for the
last check. So a line that a valid program has at one place fails at all others, and only
because of its number.
-/

namespace MiniatureMachine

/-- The digits that a line begins with, as they are written. -/
def SourceLine.numeral (line : SourceLine) : String :=
  String.ofList (line.text.toList.takeWhile Char.isDigit)

/-- A line at a place where another number belongs. -/
def AssembledLine.misplaced (index : Nat) (line : SourceLine) : AssembledLine where
  index := index
  sourceLine := line.number
  encoding := .error (.badLineNumber line.numeral index)
  source := line.text

def Diagnostic.misplaced (index : Nat) (line : SourceLine) : Diagnostic where
  index := index
  sourceLine := line.number
  error := .badLineNumber line.numeral index
  text := line.text

private theorem Statement.number_of_parse {line : SourceLine} {statement : Statement}
    (parsed : parse line.text = .ok statement) : statement.number = line.numeral := by
  unfold parse at parsed
  dsimp only at parsed
  split at parsed
  · split at parsed <;> cases parsed
  · split at parsed
    · split at parsed
      · cases parsed
        rfl
      · cases parsed
    · cases parsed

variable {dialect : Dialect} {line : SourceLine} {index : Nat} {bits : String}

/-! ## One line -/

/-- All checks but that of the number are the same at every place. -/
theorem AssembledLine.encode_of_encoded (encoded : encode dialect index line.text = .ok bits)
    (other : Nat) :
    encode dialect other line.text =
      if other = index then .ok bits else .error (.badLineNumber line.numeral other) := by
  obtain ⟨statement, parsed, encoded⟩ := Effects.except_bind_eq_ok_iff.mp encoded
  have number := Statement.number_of_parse parsed
  unfold encode
  rw [parsed]
  cases resolved : dialect.resolve? statement.operation with
  | none =>
      rw [resolved] at encoded
      cases encoded
  | some operation =>
      rw [resolved] at encoded
      obtain ⟨digits, made, encoded⟩ := Effects.except_bind_eq_ok_iff.mp encoded
      split at encoded
      · rename_i declared
        cases encoded
        rw [number] at declared
        simp only [bind, Except.bind, resolved, made, number, declared, Option.some.injEq,
          eq_comm (a := index)]
        rfl
      · cases encoded

/-- No line is at home at two places. -/
theorem AssembledLine.index_unique {other : Nat} {bits' : String}
    (here : encode dialect index line.text = .ok bits)
    (there : encode dialect other line.text = .ok bits') : other = index := by
  rw [encode_of_encoded here other] at there
  split at there
  · assumption
  · cases there

private theorem AssembledLine.isEncoded_iff {assembled : AssembledLine} :
    assembled.isEncoded = true ↔ ∃ bits, assembled.encoding = .ok bits := by
  unfold isEncoded
  cases assembled.encoding <;> simp

namespace AssembledProgram

/-! ## A program by its places -/

theorem getElem?_ofLines (dialect : Dialect) (lines : List SourceLine) (index : Nat) :
    (ofLines dialect lines).lines[index]? =
      lines[index]?.map (AssembledLine.ofSource dialect index) := by
  simp [ofLines, Option.map_map, Function.comp_def]

theorem isValid_iff {program : AssembledProgram} :
    program.isValid = true ↔
      program.lines ≠ [] ∧ ∀ line ∈ program.lines, ∃ bits, line.encoding = .ok bits := by
  simp [isValid, AssembledLine.isEncoded_iff]

theorem isValid_ofLines_iff {lines : List SourceLine} :
    (ofLines dialect lines).isValid = true ↔
      lines ≠ [] ∧ ∀ index line, lines[index]? = some line →
        ∃ bits, AssembledLine.encode dialect index line.text = .ok bits := by
  rw [isValid_iff]
  refine and_congr (by simp [ofLines]) ?_
  simp only [List.mem_iff_getElem?, getElem?_ofLines, Option.map_eq_some_iff]
  constructor
  · intro encoded index line found
    exact encoded _ ⟨index, line, found, rfl⟩
  · rintro encoded _ ⟨index, line, found, rfl⟩
    exact encoded index line found

private theorem diagnostics_ofLines (dialect : Dialect) (lines : List SourceLine) :
    (ofLines dialect lines).diagnostics =
      lines.zipIdx.filterMap fun entry =>
        (AssembledLine.ofSource dialect entry.2 entry.1).diagnostic? := by
  rw [diagnostics, ofLines, List.filterMap_map]
  rfl

/-! ## Lines of a valid program -/

section Taken

variable {lines taken : List SourceLine} (valid : (ofLines dialect lines).isValid = true)
  (fromLines : ∀ line ∈ taken, line ∈ lines)

include valid fromLines

/-- A line of the program that stands elsewhere has a number that does not fit, and nothing
else is wrong with it. -/
theorem encode_of_taken (found : taken[index]? = some line) :
    (lines[index]? = some line ∧
      ∃ bits, AssembledLine.encode dialect index line.text = .ok bits) ∨
    (lines[index]? ≠ some line ∧
      AssembledLine.encode dialect index line.text =
        .error (.badLineNumber line.numeral index)) := by
  have encoded := (isValid_ofLines_iff.mp valid).2
  obtain ⟨home, atHome⟩ := List.mem_iff_getElem?.mp
    (fromLines line (List.mem_of_getElem? found))
  obtain ⟨bits, encodes⟩ := encoded home line atHome
  by_cases inPlace : index = home
  · subst inPlace
    exact .inl ⟨atHome, bits, encodes⟩
  · refine .inr ⟨?_, ?_⟩
    · intro alsoHere
      obtain ⟨bits', alsoEncodes⟩ := encoded index line alsoHere
      exact inPlace (AssembledLine.index_unique encodes alsoEncodes)
    · rw [AssembledLine.encode_of_encoded encodes, if_neg inPlace]

private theorem isValid_taken_iff :
    (ofLines dialect taken).isValid = true ↔ taken ≠ [] ∧ taken <+: lines := by
  rw [isValid_ofLines_iff, List.prefix_iff_getElem?]
  refine and_congr_right fun _ => ⟨?_, ?_⟩
  · intro encoded index inTaken
    have found := List.getElem?_eq_getElem inTaken
    obtain ⟨bits, encodes⟩ := encoded index _ found
    rcases encode_of_taken valid fromLines found with ⟨inPlace, -⟩ | ⟨-, fails⟩
    · exact inPlace
    · rw [encodes] at fails
      cases fails
  · intro inPlace index line found
    obtain ⟨inTaken, rfl⟩ := List.getElem?_eq_some_iff.mp found
    exact (isValid_ofLines_iff.mp valid).2 index _ (inPlace index inTaken)

private theorem diagnostics_taken :
    (ofLines dialect taken).diagnostics =
      taken.zipIdx.filterMap fun entry =>
        if lines[entry.2]? = some entry.1 then none
        else some (.misplaced entry.2 entry.1) := by
  rw [diagnostics_ofLines]
  apply List.filterMap_congr
  intro ⟨line, index⟩ member
  have found := List.mem_zipIdx_iff_getElem?.mp member
  unfold AssembledLine.diagnostic? AssembledLine.ofSource
  rcases encode_of_taken valid fromLines found with ⟨inPlace, bits, encodes⟩ | ⟨misplaced, fails⟩
  · simp [encodes, inPlace]
  · simp [fails, misplaced, Diagnostic.misplaced]

end Taken

/-- Dropping the lines behind a place drops their assembled lines and no others. -/
theorem lines_of_isPrefix {lines taken : List SourceLine} (isPrefix : taken <+: lines) :
    (ofLines dialect taken).lines = (ofLines dialect lines).lines.take taken.length := by
  obtain ⟨later, rfl⟩ := isPrefix
  rw [ofLines, ofLines, List.zipIdx_append, List.map_append, List.take_left']
  simp

/-- A sequence of lines of a valid program, with any of them left out, repeated or moved, is
valid exactly when it is the program up to some place, and then its image text has the lines
of the program's image text up to that place. In every sequence, the lines that do not stand
where the program has them fail, because of their number alone. The others are assembled as
in the program. -/
theorem line_numbers_tell_misplaced_lines {lines taken : List SourceLine}
    (valid : (ofLines dialect lines).isValid = true)
    (fromLines : ∀ line ∈ taken, line ∈ lines) :
    ((ofLines dialect taken).isValid = true ↔ taken ≠ [] ∧ taken <+: lines) ∧
      (taken ≠ [] → taken <+: lines →
        ∃ texts, texts.length = lines.length ∧
          (ofLines dialect lines).imageText? = some (Image.write texts) ∧
          (ofLines dialect taken).imageText? = some (Image.write (texts.take taken.length))) ∧
      (∀ (index : Nat) (line : SourceLine), taken[index]? = some line →
        (lines[index]? = some line →
          (ofLines dialect taken).lines[index]? = (ofLines dialect lines).lines[index]?) ∧
        (lines[index]? ≠ some line →
          (ofLines dialect taken).lines[index]? =
            some (.misplaced index line))) ∧
      (ofLines dialect taken).diagnostics =
        taken.zipIdx.filterMap fun entry =>
          if lines[entry.2]? = some entry.1 then none
          else some (.misplaced entry.2 entry.1) := by
  refine ⟨isValid_taken_iff valid fromLines, ?_, ?_, diagnostics_taken valid fromLines⟩
  · intro nonempty isPrefix
    have takenValid := (isValid_taken_iff valid fromLines).mpr ⟨nonempty, isPrefix⟩
    refine ⟨(ofLines dialect lines).lines.map AssembledLine.text, by simp [ofLines], ?_, ?_⟩
    · rw [imageText?, if_pos valid]
    · rw [imageText?, if_pos takenValid, lines_of_isPrefix isPrefix, List.map_take]
  · intro index line found
    refine ⟨?_, ?_⟩
    · intro inPlace
      rw [getElem?_ofLines, getElem?_ofLines, found, inPlace]
    · intro misplaced
      rcases encode_of_taken valid fromLines found with ⟨inPlace, -⟩ | ⟨-, fails⟩
      · exact absurd inPlace misplaced
      · rw [getElem?_ofLines, found, Option.map_some, AssembledLine.ofSource, fails]
        rfl

/-- A program that echoes a number. Its first line has a number with a leading zero. -/
def echoLines : List SourceLine :=
  [⟨"00 read r1", 2⟩, ⟨"1 write r1 # echo", 3⟩, ⟨"2 halt", 5⟩]

/-- The echo without its second line, with its last line twice and its first line again. -/
def shuffledEcho : List SourceLine :=
  [⟨"00 read r1", 2⟩, ⟨"2 halt", 5⟩, ⟨"2 halt", 5⟩, ⟨"00 read r1", 2⟩]

/-- Of the four lines, the second and the last do not stand where the echo has them. -/
theorem shuffledEcho_misplaced :
    (ofLines .canonical shuffledEcho).isValid = false ∧
      (ofLines .canonical shuffledEcho).lines[2]? = (ofLines .canonical echoLines).lines[2]? ∧
      (ofLines .canonical shuffledEcho).diagnostics =
        [⟨1, 5, .badLineNumber "2" 1, "2 halt"⟩, ⟨3, 2, .badLineNumber "00" 3, "00 read r1"⟩] := by
  have valid : (ofLines .canonical echoLines).isValid = true := by decide +kernel
  have fromLines : ∀ line ∈ shuffledEcho, line ∈ echoLines := by decide
  have notPrefix : ¬shuffledEcho <+: echoLines := by decide
  obtain ⟨isValid, -, places, diagnostics⟩ := line_numbers_tell_misplaced_lines valid fromLines
  refine ⟨?_, (places 2 ⟨"2 halt", 5⟩ rfl).1 rfl, ?_⟩
  · rw [Bool.eq_false_iff, ne_eq, isValid]
    exact fun isPrefix => notPrefix isPrefix.2
  · rw [diagnostics]
    decide +kernel

end AssembledProgram

end MiniatureMachine
