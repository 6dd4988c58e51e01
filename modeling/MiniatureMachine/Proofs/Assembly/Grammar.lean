import Mathlib.Data.List.Basic
import Mathlib.Tactic.SplitIfs
import MiniatureMachine.Assembly.Statement
import MiniatureMachine.Proofs.Text

/-!
Contract: the grammar of program lines.

Owns:
- the two ways in which a text ends before a comment, and the text between blanks;
- the readings of a text without a line number, and those of a line;
- the reader of lines against the readings, with the fault of a line that has none.

A reading says where a text is cut and carries the proof that every part is what the
grammar asks for. The reader finds one when there is one, and there are never two.
-/

namespace MiniatureMachine.Text

/-- What is left of a text without the blanks at its ends. -/
structure IsTrimOf (kept text : List Char) : Prop where
  surrounded : ∃ front back, text = front ++ (kept ++ back) ∧
    (∀ c ∈ front, isBlank c = true) ∧ ∀ c ∈ back, isBlank c = true
  begins : ∀ c ∈ kept.head?, isBlank c = false
  ends : ∀ c ∈ kept.getLast?, isBlank c = false

private theorem trim_blanks_append {gap : List Char} (blanks : ∀ c ∈ gap, isBlank c = true)
    (text : List Char) : trim (gap ++ text) = trim text := by
  rw [trim, trimStart_append_of_eq_nil (trimStart_of_blanks blanks)]
  rfl

theorem isBlank_of_getLast?_trimEnd {text : List Char} {c : Char}
    (last : c ∈ (trimEnd text).getLast?) : isBlank c = false := by
  have dropped := List.head?_dropWhile_not isBlank text.reverse
  rw [trimEnd, List.getLast?_reverse] at last
  rw [Option.mem_def.mp last] at dropped
  simpa using dropped

theorem isBlank_of_head?_trimStart {text : List Char} {c : Char}
    (first : c ∈ (trimStart text).head?) : isBlank c = false := by
  have dropped := List.head?_dropWhile_not isBlank text
  rw [show (text.dropWhile isBlank).head? = some c from first] at dropped
  simpa using dropped

private theorem isTrimOf_trim (text : List Char) : IsTrimOf (trim text) text := by
  obtain ⟨back, parts, inBack⟩ := exists_eq_trimEnd_append (trimStart text)
  have inFront : ∀ c ∈ text.takeWhile isBlank, isBlank c = true :=
    List.all_eq_true.mp List.all_takeWhile
  refine ⟨⟨text.takeWhile isBlank, back, ?_, inFront, inBack⟩, ?_,
    fun c => isBlank_of_getLast?_trimEnd⟩
  · rw [trim, ← parts]
    exact List.takeWhile_append_dropWhile.symm
  · intro c first
    apply isBlank_of_head?_trimStart
    rw [parts, List.head?_append, show (trimEnd (trimStart text)).head? = some c from first]
    rfl

/-- Trimming finds the only trimmed text. -/
theorem trim_eq_iff {text kept : List Char} : trim text = kept ↔ IsTrimOf kept text := by
  constructor
  · rintro rfl
    exact isTrimOf_trim text
  · rintro ⟨⟨front, back, rfl, inFront, inBack⟩, begins, ends⟩
    rw [trim_blanks_append inFront, trim_append_blanks inBack, trim, trimStart_of_head begins,
      trimEnd_of_last ends]

end MiniatureMachine.Text

namespace MiniatureMachine.Statement

/-! ## Comments -/

/-- The part of a text that stands before its comment, or all of it. The first number sign
begins the comment, and a blank has to stand before it. -/
inductive IsBodyOf : (body text : List Char) → Prop
  | whole {text : List Char} (uncommented : '#' ∉ text) : IsBodyOf text text
  | setOff {body : List Char} {blank : Char} (uncommented : '#' ∉ body)
      (last : blank ∈ body.getLast?) (isBlank : Text.isBlank blank = true) (remark : List Char) :
      IsBodyOf body (body ++ '#' :: remark)

theorem beforeComment?_remark {body : List Char} (uncommented : '#' ∉ body) (remark : List Char) :
    beforeComment? (body ++ '#' :: remark) =
      if body.getLast?.any Text.isBlank then some body else none := by
  have solid : ∀ c ∈ body, (c != '#') = true := by
    intro c member
    rw [bne_iff_ne]
    rintro rfl
    exact uncommented member
  have stops : ∀ c ∈ ('#' :: remark).head?, (c != '#') = false := by
    rintro c ⟨⟩
    rfl
  rw [beforeComment?, if_pos (by simp), (Text.span_append solid stops).1]

theorem beforeComment?_of_uncommented {text : List Char} (uncommented : '#' ∉ text) :
    beforeComment? text = some text := by
  rw [beforeComment?, if_neg]
  rwa [List.contains_iff_mem]

theorem beforeComment?_eq_some_iff {text body : List Char} :
    beforeComment? text = some body ↔ IsBodyOf body text := by
  constructor
  · intro cut
    by_cases commented : '#' ∈ text
    · obtain ⟨front, remark, rfl, uncommented⟩ := List.eq_append_cons_of_mem commented
      rw [beforeComment?_remark uncommented, Option.ite_none_right_eq_some] at cut
      obtain ⟨blank, ⟨⟩⟩ := cut
      obtain ⟨c, last, isBlank⟩ := (Option.any_eq_true _ _).mp blank
      exact .setOff uncommented last isBlank remark
    · rw [beforeComment?_of_uncommented commented] at cut
      cases cut
      exact .whole commented
  · intro isBody
    cases isBody with
    | whole uncommented => exact beforeComment?_of_uncommented uncommented
    | setOff uncommented last isBlank remark =>
        rw [beforeComment?_remark uncommented, if_pos]
        exact (Option.any_eq_true _ _).mpr ⟨_, last, isBlank⟩

/-! ## Texts without a line number -/

/-- The text begins neither with a digit nor with a blank. -/
def BeginsForeign (text : List Char) : Prop :=
  ∀ c ∈ text.head?, c.isDigit = false ∧ Text.isBlank c = false

/-- A way to take apart a text without a line number: a name, and behind it the operands
and perhaps a comment. -/
structure OperationReading where
  name : List Char
  tail : List Char
  body : List Char
  operands : List Char
  named : name ≠ []
  lower : ∀ c ∈ name, c.isLower = true
  closed : ∀ c ∈ tail.head?, c.isLower = false
  isBody : IsBodyOf body tail
  isTrim : Text.IsTrimOf operands body
  noComma : operands.head? ≠ some ','
  known : ∀ c ∈ operands, isOperandChar c = true ∨ isSeparator c = true

namespace OperationReading

def text (reading : OperationReading) : List Char :=
  reading.name ++ reading.tail

variable (reading : OperationReading)

theorem span_text :
    reading.text.takeWhile Char.isLower = reading.name ∧
      reading.text.dropWhile Char.isLower = reading.tail :=
  Text.span_append reading.lower reading.closed

/-- The reader finds the parts of a text that can be taken apart. -/
theorem operationPart?_text :
    operationPart? reading.text = some (reading.name, reading.operands) := by
  obtain ⟨taken, dropped⟩ := reading.span_text
  have present : reading.name.isEmpty = false := by simpa using reading.named
  have cut := beforeComment?_eq_some_iff.mpr reading.isBody
  have trimmed := Text.trim_eq_iff.mpr reading.isTrim
  have areOperands : isOperandText reading.operands = true := by
    simp only [isOperandText, Bool.and_eq_true, bne_iff_ne, List.all_eq_true, Bool.or_eq_true]
    exact ⟨reading.noComma, reading.known⟩
  unfold operationPart?
  simp only [taken, dropped, present, Bool.false_eq_true, if_false, cut, trimmed, areOperands,
    if_true]

/-- A text is taken apart in one way only. -/
theorem text_injective : Function.Injective text := by
  intro reading other same
  have names : reading.name = other.name := by
    rw [← reading.span_text.1, same, other.span_text.1]
  have tails : reading.tail = other.tail := by
    rw [← reading.span_text.2, same, other.span_text.2]
  have bodies : reading.body = other.body := by
    have cut := beforeComment?_eq_some_iff.mpr reading.isBody
    rw [tails, beforeComment?_eq_some_iff.mpr other.isBody] at cut
    exact (Option.some.inj cut).symm
  have operands : reading.operands = other.operands := by
    rw [← Text.trim_eq_iff.mpr reading.isTrim, bodies, Text.trim_eq_iff.mpr other.isTrim]
  cases reading
  cases other
  cases names
  cases tails
  cases bodies
  cases operands
  rfl

private theorem exists_of_operationPart? {text name operands : List Char}
    (read : operationPart? text = some (name, operands)) :
    ∃ reading : OperationReading, reading.text = text ∧ reading.name = name ∧
      reading.operands = operands := by
  unfold operationPart? at read
  dsimp only at read
  split at read
  · cases read
  rename_i named
  split at read
  · cases read
  rename_i body cut
  obtain ⟨areOperands, ⟨⟩⟩ := Option.ite_none_right_eq_some.mp read
  simp only [isOperandText, Bool.and_eq_true, bne_iff_ne, List.all_eq_true,
    Bool.or_eq_true] at areOperands
  have closed : ∀ c ∈ (text.dropWhile Char.isLower).head?, c.isLower = false := by
    intro c first
    have dropped := List.head?_dropWhile_not Char.isLower text
    rw [Option.mem_def.mp first] at dropped
    simpa using dropped
  refine ⟨{
    name := text.takeWhile Char.isLower
    tail := text.dropWhile Char.isLower
    body := body
    operands := Text.trim body
    named := by simpa using named
    lower := List.all_eq_true.mp List.all_takeWhile
    closed := closed
    isBody := beforeComment?_eq_some_iff.mp cut
    isTrim := Text.isTrimOf_trim body
    noComma := areOperands.1
    known := areOperands.2 }, List.takeWhile_append_dropWhile, rfl, rfl⟩

theorem exists_text_iff {text : List Char} :
    (∃ reading : OperationReading, reading.text = text) ↔ (operationPart? text).isSome = true := by
  constructor
  · rintro ⟨reading, rfl⟩
    rw [reading.operationPart?_text]
    rfl
  · intro read
    obtain ⟨⟨name, operands⟩, read⟩ := Option.isSome_iff_exists.mp read
    obtain ⟨reading, apart, -⟩ := exists_of_operationPart? read
    exact ⟨reading, apart⟩

theorem beginsForeign_text : BeginsForeign reading.text := by
  intro c first
  rw [text, List.head?_append_of_ne_nil _ reading.named] at first
  have lower := reading.lower c (List.mem_of_mem_head? first)
  exact ⟨Text.isDigit_of_isLower lower, Text.isBlank_of_isLower lower⟩

end OperationReading

/-! ## Lines -/

/-- A way to take apart a line: a number, blanks and a text without a number. -/
structure Reading where
  number : List Char
  gap : List Char
  operation : OperationReading
  numbered : number ≠ []
  digits : ∀ c ∈ number, c.isDigit = true
  spaced : gap ≠ []
  blanks : ∀ c ∈ gap, Text.isBlank c = true

namespace Reading

def line (reading : Reading) : List Char :=
  reading.number ++ (reading.gap ++ reading.operation.text)

def statement (reading : Reading) : Statement :=
  ⟨String.ofList reading.number, String.ofList reading.operation.name,
    String.ofList reading.operation.operands⟩

variable (reading : Reading)

theorem span_line :
    reading.line.takeWhile Char.isDigit = reading.number ∧
      reading.line.dropWhile Char.isDigit = reading.gap ++ reading.operation.text := by
  refine Text.span_append reading.digits fun c first => ?_
  rw [List.head?_append_of_ne_nil _ reading.spaced] at first
  exact Text.isDigit_of_isBlank (reading.blanks c (List.mem_of_mem_head? first))

theorem span_rest :
    (reading.gap ++ reading.operation.text).takeWhile Text.isBlank = reading.gap ∧
      Text.trimStart (reading.gap ++ reading.operation.text) = reading.operation.text := by
  exact Text.span_append reading.blanks fun c first =>
    (reading.operation.beginsForeign_text c first).2

/-- A line that can be taken apart is read as its parts. -/
theorem parse_line : parse (String.ofList reading.line) = .ok reading.statement := by
  obtain ⟨taken, dropped⟩ := reading.span_line
  have present : reading.number.isEmpty = false := by simpa using reading.numbered
  have blank : (reading.gap ++ reading.operation.text).head?.any Text.isBlank = true := by
    obtain ⟨c, gap, parts⟩ := List.exists_cons_of_ne_nil reading.spaced
    rw [parts, List.cons_append, List.head?_cons]
    exact reading.blanks c (by simp [parts])
  unfold parse
  simp only [String.toList_ofList, taken, dropped, present, Bool.false_eq_true, if_false, blank,
    if_true, reading.span_rest.2, reading.operation.operationPart?_text]
  rfl

/-- A line is taken apart in one way only. -/
theorem line_injective : Function.Injective line := by
  intro reading other same
  have numbers : reading.number = other.number := by
    rw [← reading.span_line.1, same, other.span_line.1]
  have rests : reading.gap ++ reading.operation.text = other.gap ++ other.operation.text := by
    rw [← reading.span_line.2, same, other.span_line.2]
  have gaps : reading.gap = other.gap := by
    rw [← reading.span_rest.1, rests, other.span_rest.1]
  have operations : reading.operation = other.operation := by
    apply OperationReading.text_injective
    rw [← reading.span_rest.2, rests, other.span_rest.2]
  cases reading
  cases other
  cases numbers
  cases gaps
  cases operations
  rfl

private theorem exists_of_parse {line : String} {statement : Statement}
    (read : parse line = .ok statement) :
    ∃ reading : Reading, reading.line = line.toList ∧ reading.statement = statement := by
  unfold parse at read
  dsimp only at read
  split at read
  · split at read <;> cases read
  rename_i numbered
  split at read
  case isFalse => cases read
  rename_i blank
  split at read
  case h_2 => cases read
  rename_i name operands part
  cases read
  obtain ⟨operation, apart, rfl, rfl⟩ := OperationReading.exists_of_operationPart? part
  have spaced : (line.toList.dropWhile Char.isDigit).takeWhile Text.isBlank ≠ [] := by
    obtain ⟨c, first, isBlank⟩ := (Option.any_eq_true _ _).mp blank
    obtain ⟨rest, parts⟩ := List.head?_eq_some_iff.mp first
    rw [parts, List.takeWhile_cons_of_pos isBlank]
    exact List.cons_ne_nil _ _
  refine ⟨{
    number := line.toList.takeWhile Char.isDigit
    gap := (line.toList.dropWhile Char.isDigit).takeWhile Text.isBlank
    operation := operation
    numbered := by simpa using numbered
    digits := List.all_eq_true.mp List.all_takeWhile
    spaced := spaced
    blanks := List.all_eq_true.mp List.all_takeWhile }, ?_, rfl⟩
  rw [Reading.line, apart, Text.trimStart, List.takeWhile_append_dropWhile,
    List.takeWhile_append_dropWhile]

end Reading

theorem parse_eq_ok_iff {line : String} {statement : Statement} :
    parse line = .ok statement ↔
      ∃ reading : Reading, reading.line = line.toList ∧ reading.statement = statement := by
  constructor
  · exact Reading.exists_of_parse
  · rintro ⟨reading, apart, rfl⟩
    rw [← String.ofList_toList (s := line), ← apart]
    exact reading.parse_line

/-- What the reader makes of a line that does not begin with a digit. -/
theorem parse_of_unnumbered {line : String}
    (unnumbered : ∀ c ∈ line.toList.head?, c.isDigit = false) :
    parse line =
      if (operationPart? line.toList).isSome then .error .missingLineNumber
      else .error .malformed := by
  obtain ⟨taken, dropped⟩ :=
    @Text.span_append Char.isDigit [] line.toList nofun unnumbered
  rw [List.nil_append] at taken dropped
  unfold parse
  simp only [taken, dropped, List.isEmpty_nil, if_true]

private theorem parse_zero_append (line : String) :
    (∃ statement, parse ("0 " ++ line) = .ok statement) ↔
      (operationPart? (Text.trimStart line.toList)).isSome = true := by
  have numbered : ("0 " ++ line).toList = ['0'] ++ ' ' :: line.toList := by
    rw [String.toList_append]
    rfl
  have stops : ∀ c ∈ (' ' :: line.toList).head?, c.isDigit = false := by
    rintro c ⟨⟩
    decide
  obtain ⟨taken, dropped⟩ :=
    Text.span_append (List.forall_mem_singleton.mpr (show '0'.isDigit = true by decide)) stops
  have blank : (' ' :: line.toList).head?.any Text.isBlank = true := rfl
  have trimmed : Text.trimStart (' ' :: line.toList) = Text.trimStart line.toList := rfl
  unfold parse
  simp only [numbered, taken, dropped, blank, trimmed, List.isEmpty_cons, Bool.false_eq_true,
    if_false, if_true]
  cases operationPart? (Text.trimStart line.toList) <;> simp

/-- No line number is missed where a line begins with a digit. -/
theorem unnumbered_of_missing {line : String} (missing : parse line = .error .missingLineNumber) :
    ∀ c ∈ line.toList.head?, c.isDigit = false := by
  intro c first
  by_contra digit
  rw [Bool.not_eq_false] at digit
  obtain ⟨rest, parts⟩ := List.head?_eq_some_iff.mp first
  have numbered : (line.toList.takeWhile Char.isDigit).isEmpty = false := by
    rw [parts, List.takeWhile_cons_of_pos digit]
    rfl
  unfold parse at missing
  simp only [numbered, Bool.false_eq_true, if_false] at missing
  split at missing
  · split at missing <;> cases missing
  · cases missing

/-- A line number is missed when there is nothing else to complain about. -/
theorem parse_eq_missing_iff {line : String} :
    parse line = .error .missingLineNumber ↔
      BeginsForeign line.toList ∧ ∃ statement, parse ("0 " ++ line) = .ok statement := by
  rw [parse_zero_append]
  constructor
  · intro missing
    rw [parse_of_unnumbered (unnumbered_of_missing missing)] at missing
    split at missing
    · rename_i read
      obtain ⟨reading, apart⟩ := OperationReading.exists_text_iff.mpr read
      have foreign : BeginsForeign line.toList := apart ▸ reading.beginsForeign_text
      rw [Text.trimStart_of_head fun c first => (foreign c first).2]
      exact ⟨foreign, read⟩
    · cases missing
  · rintro ⟨foreign, read⟩
    rw [Text.trimStart_of_head fun c first => (foreign c first).2] at read
    rw [parse_of_unnumbered fun c first => (foreign c first).1, if_pos read]

theorem parse_cases (line : String) :
    (∃ statement, parse line = .ok statement) ∨ parse line = .error .missingLineNumber ∨
      parse line = .error .malformed := by
  unfold parse
  dsimp only
  split_ifs
  · exact .inr (.inl rfl)
  · exact .inr (.inr rfl)
  · split
    · exact .inl ⟨_, rfl⟩
    · exact .inr (.inr rfl)
  · exact .inr (.inr rfl)

theorem exists_reading_iff {line : String} :
    (∃ reading : Reading, reading.line = line.toList) ↔
      ∃ statement, parse line = .ok statement := by
  constructor
  · rintro ⟨reading, apart⟩
    exact ⟨reading.statement, parse_eq_ok_iff.mpr ⟨reading, apart, rfl⟩⟩
  · rintro ⟨statement, read⟩
    obtain ⟨reading, apart, -⟩ := parse_eq_ok_iff.mp read
    exact ⟨reading, apart⟩

/-- A line has one reading at most. It is read as what its reading says. A line without a
reading that begins neither with a digit nor with a blank misses its number when a number
in front makes it readable, and every other line is malformed. -/
theorem parse_follows_grammar :
    Function.Injective Reading.line ∧
      ∀ line : String,
        (∀ statement, parse line = .ok statement ↔
          ∃ reading : Reading, reading.line = line.toList ∧ reading.statement = statement) ∧
        (parse line = .error .missingLineNumber ↔
          BeginsForeign line.toList ∧ ∃ statement, parse ("0 " ++ line) = .ok statement) ∧
        (parse line = .error .malformed ↔
          (¬∃ reading : Reading, reading.line = line.toList) ∧
            ¬(BeginsForeign line.toList ∧ ∃ statement, parse ("0 " ++ line) = .ok statement)) := by
  refine ⟨Reading.line_injective, fun line => ⟨fun statement => parse_eq_ok_iff,
    parse_eq_missing_iff, ?_⟩⟩
  rw [exists_reading_iff, ← parse_eq_missing_iff]
  constructor
  · intro malformed
    rw [malformed]
    exact ⟨nofun, nofun⟩
  · rintro ⟨unread, unmissed⟩
    rcases parse_cases line with read | missing | malformed
    · exact absurd read unread
    · exact absurd missing unmissed
    · exact malformed

end MiniatureMachine.Statement
