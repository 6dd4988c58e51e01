import Mathlib.Data.List.Basic
import Mathlib.Data.List.TakeWhile
import Mathlib.Logic.Relation
import MiniatureMachine.Assembly.Program
import MiniatureMachine.Proofs.Assembly.Grammar

/-!
Contract: blanks, blank lines, line endings and comments do not change a program.

Owns:
- the edits of a source text that touch nothing but its layout;
- the statements of a source text, which decide what its lines are assembled to;
- that no edit changes the statements, and what follows for the assembled program.

Does not own: the places of the lines in the source, which an edit may well change.

A line that is wrong stays wrong in the same way. So the edits are followed up to the
reader of statements, and what that makes of a line may be an error.
-/

namespace MiniatureMachine

/-! ## Edits -/

/-- A line on which nothing stands, or a comment only: the first character that is not
blank, if there is one, is `#`. -/
def SourceLine.IsIdle (line : List Char) : Prop :=
  ∀ c ∈ line.find? fun c => !Text.isBlank c, c = '#'

/-- An edit of the layout of one line, which is given without its newline. -/
inductive LineEdit : List Char → List Char → Prop
  | indent {c : Char} (blank : Text.isBlank c = true) (line : List Char) :
      LineEdit line (c :: line)
  | pad {c : Char} (blank : Text.isBlank c = true) (line : List Char) :
      LineEdit line (line ++ [c])
  /-- The newline behind the line becomes a carriage return with a newline. -/
  | carriageReturn (line : List Char) : LineEdit line (line ++ ['\r'])
  | comment {line : List Char} (uncommented : '#' ∉ line) (remark : List Char) :
      LineEdit line (line ++ ' ' :: '#' :: remark)

/-- An edit of the layout of a source text, at one of its lines. -/
inductive LayoutEdit : List Char → List Char → Prop
  | line {front line line' back : List Char} (begins : front = [] ∨ front.getLast? = some '\n')
      (ends : back = [] ∨ back.head? = some '\n') (edit : LineEdit line line')
      (unbroken : '\n' ∉ line) (unbroken' : '\n' ∉ line') :
      LayoutEdit (front ++ (line ++ back)) (front ++ (line' ++ back))
  | insert {front line : List Char} (begins : front = [] ∨ front.getLast? = some '\n')
      (idle : SourceLine.IsIdle line) (unbroken : '\n' ∉ line) (back : List Char) :
      LayoutEdit (front ++ back) (front ++ (line ++ '\n' :: back))
  /-- An idle line behind the last one. -/
  | append {line : List Char} (idle : SourceLine.IsIdle line) (unbroken : '\n' ∉ line)
      (front : List Char) : LayoutEdit front (front ++ '\n' :: line)

/-! ## Comments behind a statement -/

namespace Statement

/-- Nothing that begins with a comment names an operation. -/
theorem operationPart?_remark (remark : List Char) : operationPart? ('#' :: remark) = none := by
  simp [operationPart?]

section Comment

variable {gap : List Char} (blanks : ∀ c ∈ gap, Text.isBlank c = true) (present : gap ≠ [])
  (remark : List Char)

include blanks present

private theorem isBlank_of_head?_comment {c : Char} (first : c ∈ (gap ++ '#' :: remark).head?) :
    Text.isBlank c = true := by
  rw [List.head?_append_of_ne_nil _ present] at first
  exact blanks c (List.mem_of_mem_head? first)

/-- A comment that is set off by blanks is cut off, and the blanks stay. -/
theorem beforeComment?_comment {text : List Char} (uncommented : '#' ∉ text) :
    beforeComment? (text ++ (gap ++ '#' :: remark)) = some (text ++ gap) := by
  have stillUncommented : '#' ∉ text ++ gap := by
    intro member
    rcases List.mem_append.mp member with inText | inGap
    · exact uncommented inText
    · exact absurd (blanks '#' inGap) (by decide)
  have closed : (text ++ gap).getLast?.any Text.isBlank = true := by
    rw [List.getLast?_append_of_ne_nil _ present, List.getLast?_eq_some_getLast present]
    exact blanks _ (List.getLast_mem present)
  rw [← List.append_assoc, beforeComment?_remark stillUncommented, if_pos closed]

private theorem operationPart?_comment {text : List Char} (uncommented : '#' ∉ text) :
    operationPart? (text ++ (gap ++ '#' :: remark)) = operationPart? text := by
  obtain ⟨name, rest⟩ := Text.span_append_of_head text fun c first =>
    Text.isLower_of_isBlank (isBlank_of_head?_comment blanks present remark first)
  have restUncommented : '#' ∉ text.dropWhile Char.isLower :=
    fun member => uncommented ((List.dropWhile_sublist _).mem member)
  unfold operationPart?
  simp only [name, rest, beforeComment?_comment blanks present remark restUncommented,
    beforeComment?_of_uncommented restUncommented, Text.trim_append_blanks blanks]

private theorem operationPart?_trimStart_comment {text : List Char} (uncommented : '#' ∉ text) :
    operationPart? (Text.trimStart (text ++ (gap ++ '#' :: remark))) =
      operationPart? (Text.trimStart text) := by
  by_cases nothing : Text.trimStart text = []
  · have onlyRemark : Text.trimStart (gap ++ '#' :: remark) = '#' :: remark := by
      rw [Text.trimStart_append_of_eq_nil (Text.trimStart_of_blanks blanks)]
      exact Text.trimStart_of_head (by rintro c ⟨⟩; decide)
    rw [Text.trimStart_append_of_eq_nil nothing, nothing, onlyRemark, operationPart?_remark]
    rfl
  · rw [Text.trimStart_append_of_ne_nil nothing]
    apply operationPart?_comment blanks present remark
    exact fun member => uncommented ((List.dropWhile_sublist _).mem member)

/-- A line is read in the same way with a comment behind it, also if it is wrong. -/
theorem parse_comment {line : List Char} (uncommented : '#' ∉ line) :
    parse (String.ofList (line ++ (gap ++ '#' :: remark))) = parse (String.ofList line) := by
  obtain ⟨number, rest⟩ := Text.span_append_of_head line fun c first =>
    Text.isDigit_of_isBlank (isBlank_of_head?_comment blanks present remark first)
  have restUncommented : '#' ∉ line.dropWhile Char.isDigit :=
    fun member => uncommented ((List.dropWhile_sublist _).mem member)
  have unnumbered := operationPart?_comment blanks present remark restUncommented
  have numbered := operationPart?_trimStart_comment blanks present remark restUncommented
  unfold parse
  simp only [String.toList_ofList, number, rest, unnumbered, numbered]
  cases later : line.dropWhile Char.isDigit with
  | cons c later => rfl
  | nil =>
      -- A bare number is wrong because nothing follows it, and with a comment because no
      -- operation does.
      have nameless : operationPart? (Text.trimStart []) = none := rfl
      simp only [nameless, List.head?_nil, Option.any_none]
      split <;> simp

end Comment

end Statement

/-! ## Statements of a source text -/

namespace SourceLine

/-- What is read on a line of the source, if it belongs to the program. -/
def statement? (line : List Char) : Option (Except LineError Statement) :=
  if isProgramText (Text.trim line) then
    some (Statement.parse (String.ofList (Text.trim line)))
  else
    none

def statements (text : List Char) : List (Except LineError Statement) :=
  (Text.pieces (· == '\n') text).filterMap statement?

private theorem statement?_dropCarriageReturn (line : List Char) :
    statement? (Text.dropCarriageReturn line) = statement? line := by
  unfold Text.dropCarriageReturn
  split
  · rename_i closed
    obtain ⟨front, rfl⟩ := List.getLast?_eq_some_iff.mp closed
    have blank : Text.isBlank '\r' = true := rfl
    rw [List.dropLast_concat, statement?, statement?, Text.trim_append_blank blank]
  · rfl

private theorem filterMap_linesOfPieces (pieces : List (List Char)) :
    (Text.linesOfPieces pieces).filterMap statement? = pieces.filterMap statement? := by
  fun_induction Text.linesOfPieces pieces with
  | case1 => rfl
  | case2 last empty =>
      rw [List.isEmpty_iff.mp empty]
      rfl
  | case3 last present => rfl
  | case4 piece next more inductionHypothesis =>
      rw [List.filterMap_cons, List.filterMap_cons, statement?_dropCarriageReturn,
        inductionHypothesis]

private theorem map_ofLine? (number : Nat) (line : List Char) :
    (ofLine? number line).map (fun line => Statement.parse line.text) = statement? line := by
  unfold ofLine? statement?
  by_cases isProgram : isProgramText (Text.trim line) = true <;> simp [isProgram]

/-- The statements of a text are read off its program lines. -/
theorem parse_program (source : String) :
    (program source).map (fun line => Statement.parse line.text) =
      statements source.toList := by
  have numberless : ∀ lines : List (List Char),
      lines.zipIdx.filterMap (fun entry => statement? entry.1) = lines.filterMap statement? := by
    intro lines
    rw [← List.zipIdx_map_fst 0 lines, List.filterMap_map, List.zipIdx_map_fst]
    rfl
  unfold program statements
  simp only [List.map_filterMap, map_ofLine?]
  rw [numberless, Text.lines, filterMap_linesOfPieces]

/-! ## Edits keep the statements -/

theorem statements_of_unbroken {line : List Char} (unbroken : '\n' ∉ line) :
    statements line = (statement? line).toList := by
  have solid : ∀ c ∈ line, (c == '\n') = false := by
    intro c member
    rw [beq_eq_false_iff_ne]
    rintro rfl
    exact unbroken member
  rw [statements, Text.pieces_of_solid solid, List.filterMap_cons]
  cases statement? line <;> rfl

theorem statements_append_newline (front back : List Char) :
    statements (front ++ '\n' :: back) = statements front ++ statements back := by
  rw [statements, Text.pieces_append rfl, List.filterMap_append]
  rfl

theorem statements_append_of_begins {front : List Char}
    (begins : front = [] ∨ front.getLast? = some '\n') (back : List Char) :
    statements (front ++ back) = statements front ++ statements back := by
  rcases begins with rfl | closed
  · rfl
  · obtain ⟨front, rfl⟩ := List.getLast?_eq_some_iff.mp closed
    have nothing : statements [] = [] := rfl
    rw [List.append_assoc, List.singleton_append, statements_append_newline,
      statements_append_newline, nothing, List.append_nil]

private theorem statements_append_of_ends {back : List Char}
    (ends : back = [] ∨ back.head? = some '\n') (line : List Char) :
    statements (line ++ back) = statements line ++ statements back := by
  rcases ends with rfl | opens
  · rw [List.append_nil]
    exact (List.append_nil _).symm
  · obtain ⟨back, rfl⟩ := List.head?_eq_some_iff.mp opens
    have nothing : statements ('\n' :: back) = statements back :=
      statements_append_newline [] back
    rw [statements_append_newline, nothing]

theorem trimStart_eq_find? (line : List Char) :
    (Text.trimStart line).head? = line.find? fun c => !Text.isBlank c := by
  rw [List.find?_eq_head?_dropWhile_not]
  simp only [Bool.not_not]
  rfl

theorem IsIdle.statement? {line : List Char} (idle : IsIdle line) :
    SourceLine.statement? line = none := by
  have notProgram : isProgramText (Text.trim line) = false := by
    unfold IsIdle at idle
    rw [← trimStart_eq_find?] at idle
    rw [Text.trim]
    cases trimmed : Text.trimStart line with
    | nil => rfl
    | cons c rest =>
        obtain rfl : c = '#' := idle c (by rw [trimmed]; rfl)
        obtain ⟨kept, ends⟩ := Text.exists_trimEnd_append (c := '#') (by decide) [] rest
        rw [List.nil_append] at ends
        rw [ends]
        rfl
  unfold SourceLine.statement?
  rw [notProgram]
  rfl

/-- On a line that is not blank, a comment behind it stays when the line is trimmed. -/
theorem exists_trim_comment {line : List Char} (present : Text.trimStart line ≠ [])
    (remark : List Char) :
    ∃ gap kept, gap ≠ [] ∧ (∀ c ∈ gap, Text.isBlank c = true) ∧
      Text.trim (line ++ ' ' :: '#' :: remark) = Text.trim line ++ (gap ++ '#' :: kept) := by
  obtain ⟨gap, parts, blanks⟩ := Text.exists_eq_trimEnd_append (Text.trimStart line)
  obtain ⟨kept, ends⟩ :=
    Text.exists_trimEnd_append (c := '#') (by decide) (Text.trimStart line ++ [' ']) remark
  refine ⟨gap ++ [' '], kept, by simp, ?_, ?_⟩
  · rw [List.forall_mem_append]
    exact ⟨blanks, List.forall_mem_singleton.mpr Text.isBlank_space⟩
  · calc Text.trim (line ++ ' ' :: '#' :: remark)
        = Text.trimEnd ((Text.trimStart line ++ [' ']) ++ '#' :: remark) := by
          rw [Text.trim, Text.trimStart_append_of_ne_nil present, List.append_assoc]
          rfl
      _ = (Text.trimStart line ++ [' ']) ++ '#' :: kept := ends
      _ = Text.trim line ++ ((gap ++ [' ']) ++ '#' :: kept) := by
          rw [Text.trim]
          conv => lhs; rw [parts]
          simp

/-- A comment behind a line does not change what is read on it. -/
theorem statement?_comment {line : List Char} (uncommented : '#' ∉ line)
    (remark : List Char) :
    statement? (line ++ ' ' :: '#' :: remark) = statement? line := by
  by_cases blank : Text.trimStart line = []
  · -- With the comment, the blank line begins with `#`.
    have onlyRemark : Text.trimStart (line ++ ' ' :: '#' :: remark) = '#' :: remark := by
      rw [Text.trimStart_append_of_eq_nil blank]
      exact @Text.trimStart_of_head ('#' :: remark) (by rintro c ⟨⟩; decide)
    have idle : IsIdle line := by
      unfold IsIdle
      rw [← trimStart_eq_find?, blank]
      exact nofun
    have idleStill : IsIdle (line ++ ' ' :: '#' :: remark) := by
      unfold IsIdle
      rw [← trimStart_eq_find?, onlyRemark]
      rintro c ⟨⟩
      rfl
    rw [idle.statement?, idleStill.statement?]
  · obtain ⟨gap, kept, present, blanks, trimmed⟩ := exists_trim_comment blank remark
    obtain ⟨c, rest, begins, member⟩ := Text.exists_trim_eq_cons blank
    have isProgram : (c != '#') = true := by
      rw [bne_iff_ne]
      rintro rfl
      exact uncommented member
    have uncommentedTrim : '#' ∉ Text.trim line :=
      fun inTrim => uncommented (Text.mem_of_mem_trim inTrim)
    have sameStatement := Statement.parse_comment blanks present kept uncommentedTrim
    unfold statement?
    rw [trimmed, sameStatement, begins]
    simp only [isProgramText, List.cons_append, isProgram, if_true]

end SourceLine

private theorem LineEdit.statement?_eq {line line' : List Char} (edit : LineEdit line line') :
    SourceLine.statement? line' = SourceLine.statement? line := by
  cases edit with
  | indent blank => rw [SourceLine.statement?, SourceLine.statement?, Text.trim_cons_blank blank]
  | pad blank => rw [SourceLine.statement?, SourceLine.statement?, Text.trim_append_blank blank]
  | carriageReturn =>
      have blank : Text.isBlank '\r' = true := rfl
      rw [SourceLine.statement?, SourceLine.statement?, Text.trim_append_blank blank]
  | comment uncommented remark => exact SourceLine.statement?_comment uncommented remark

private theorem LayoutEdit.statements_eq {text text' : List Char} (edit : LayoutEdit text text') :
    SourceLine.statements text' = SourceLine.statements text := by
  cases edit with
  | line begins ends edit unbroken unbroken' =>
      rw [SourceLine.statements_append_of_begins begins,
        SourceLine.statements_append_of_begins begins,
        SourceLine.statements_append_of_ends ends, SourceLine.statements_append_of_ends ends,
        SourceLine.statements_of_unbroken unbroken, SourceLine.statements_of_unbroken unbroken',
        edit.statement?_eq]
  | insert begins idle unbroken back =>
      rw [SourceLine.statements_append_of_begins begins,
        SourceLine.statements_append_of_begins begins, SourceLine.statements_append_newline,
        SourceLine.statements_of_unbroken unbroken, idle.statement?]
      rfl
  | append idle unbroken =>
      rw [SourceLine.statements_append_newline, SourceLine.statements_of_unbroken unbroken,
        idle.statement?]
      exact List.append_nil _

/-- What layout edits in both directions lead to has the same statements. -/
theorem SourceLine.statements_of_edits {text text' : List Char}
    (edits : Relation.EqvGen LayoutEdit text text') : statements text = statements text' := by
  induction edits with
  | rel text text' edit => exact edit.statements_eq.symm
  | refl text => rfl
  | symm text text' _ inductionHypothesis => exact inductionHypothesis.symm
  | trans text middle text' _ _ first second => exact first.trans second

/-! ## What is assembled -/

/-- What assembly makes of a line at its place in the program. -/
def AssembledLine.result (line : AssembledLine) : Nat × Except LineError String :=
  (line.index, line.encoding)

namespace AssembledProgram

private theorem getElem?_map_result (dialect : Dialect) (source : String) (index : Nat) :
    ((ofSource dialect source).lines.map AssembledLine.result)[index]? =
      (SourceLine.program source)[index]?.map fun line =>
        (index, AssembledLine.encode dialect index line.text) := by
  unfold ofSource ofLines
  simp only [List.getElem?_map, List.getElem?_zipIdx, Option.map_map]
  cases (SourceLine.program source)[index]? with
  | none => rfl
  | some line => simp [AssembledLine.ofSource, AssembledLine.result]

/-- The results are determined by the statements of the source text. -/
theorem map_result_of_statements {source source' : String} (dialect : Dialect)
    (same : SourceLine.statements source.toList = SourceLine.statements source'.toList) :
    (ofSource dialect source).lines.map AssembledLine.result =
      (ofSource dialect source').lines.map AssembledLine.result := by
  rw [← SourceLine.parse_program, ← SourceLine.parse_program] at same
  refine List.ext_getElem? fun index => ?_
  have sameAt := congrArg (·[index]?) same
  simp only [List.getElem?_map] at sameAt
  rw [getElem?_map_result, getElem?_map_result]
  cases first : (SourceLine.program source)[index]? with
  | none =>
      rw [first, Option.map_none, eq_comm, Option.map_eq_none_iff] at sameAt
      rw [sameAt]
  | some line =>
      rw [first, Option.map_some, eq_comm, Option.map_eq_some_iff] at sameAt
      obtain ⟨line', second, sameStatement⟩ := sameAt
      rw [second]
      simp only [Option.map_some, AssembledLine.encode, sameStatement]

/-- The image text is determined by the results. -/
theorem imageText?_of_results {program program' : AssembledProgram}
    (same : program.lines.map AssembledLine.result = program'.lines.map AssembledLine.result) :
    program.imageText? = program'.imageText? := by
  -- A line on which nothing but the result is noted has the same text.
  let bare : Nat × Except LineError String → AssembledLine :=
    fun result => ⟨result.1, 0, result.2, ""⟩
  have onlyResults : ∀ program : AssembledProgram, program.imageText? =
      imageText? ⟨(program.lines.map AssembledLine.result).map bare⟩ := by
    intro program
    unfold imageText? isValid
    simp only [List.map_map, List.all_map, List.isEmpty_map]
    rfl
  rw [onlyResults program, onlyResults program', same]

/-- Layout and comments never change what a source text is assembled to: whatever number of
edits in either direction leads from one text to the other, their lines are assembled to the
same encodings and the same errors, in the same places, and there is the same image text or
none. -/
theorem layout_keeps_translation {source source' : String}
    (edits : Relation.EqvGen LayoutEdit source.toList source'.toList) (dialect : Dialect) :
    (ofSource dialect source).lines.map AssembledLine.result =
        (ofSource dialect source').lines.map AssembledLine.result ∧
      (ofSource dialect source).imageText? = (ofSource dialect source').imageText? := by
  have sameResults := map_result_of_statements dialect (SourceLine.statements_of_edits edits)
  exact ⟨sameResults, imageText?_of_results sameResults⟩

/-- A program whose second line is wrong, before and after edits of its layout: a blank line
is gone, the first line is indented by a no-break space and ends with a carriage return, and
the wrong line has a comment behind it. -/
theorem brokenHalt_layout :
    (ofSource .canonical "0 halt\n\n1 add").lines.map AssembledLine.result =
        (ofSource .canonical "\u00a00 halt\r\n1 add # r1").lines.map AssembledLine.result ∧
      (ofSource .canonical "0 halt\n\n1 add").imageText? =
        (ofSource .canonical "\u00a00 halt\r\n1 add # r1").imageText? ∧
      (ofSource .canonical "0 halt\n\n1 add").lines.map AssembledLine.isEncoded =
        [true, false] := by
  let first := "0 halt".toList
  let second := "1 add".toList
  have deleted : LayoutEdit ((first ++ ['\n']) ++ second) ((first ++ ['\n']) ++ '\n' :: second) :=
    @LayoutEdit.insert (first ++ ['\n']) [] (.inr rfl) nofun nofun second
  have indented : LayoutEdit (first ++ '\n' :: second) ('\u00a0' :: first ++ '\n' :: second) :=
    @LayoutEdit.line [] first ('\u00a0' :: first) ('\n' :: second) (.inl rfl) (.inr rfl)
      (.indent rfl _) (by decide) (by decide)
  have returned : LayoutEdit ('\u00a0' :: first ++ '\n' :: second)
      (('\u00a0' :: first ++ ['\r']) ++ '\n' :: second) :=
    @LayoutEdit.line [] ('\u00a0' :: first) ('\u00a0' :: first ++ ['\r']) ('\n' :: second)
      (.inl rfl) (.inr rfl) (.carriageReturn _) (by decide) (by decide)
  have commented : LayoutEdit (('\u00a0' :: first ++ ['\r', '\n']) ++ (second ++ []))
      (('\u00a0' :: first ++ ['\r', '\n']) ++ ((second ++ " # r1".toList) ++ [])) :=
    .line (.inr rfl) (.inl rfl) (.comment (by decide) " r1".toList) (by decide) (by decide)
  have edits : Relation.EqvGen LayoutEdit "0 halt\n\n1 add".toList
      "\u00a00 halt\r\n1 add # r1".toList :=
    .trans _ _ _ (.symm _ _ (.rel _ _ deleted)) <| .trans _ _ _ (.rel _ _ indented) <|
      .trans _ _ _ (.rel _ _ returned) (.rel _ _ commented)
  obtain ⟨sameResults, sameImage⟩ := layout_keeps_translation edits .canonical
  exact ⟨sameResults, sameImage, by decide +kernel⟩

end AssembledProgram

end MiniatureMachine
