import Mathlib.Data.List.Basic
import MiniatureMachine.Proofs.Assembly.Loading
import MiniatureMachine.Proofs.Assembly.ProgramLines
import MiniatureMachine.Proofs.Assembly.RowCut
import MiniatureMachine.Proofs.Columns

/-!
Contract: the listing of a program has a row for every line, and no row loses what it is for.

Owns:
- the widths of the two columns in front of the source;
- what may stand in the column of encodings and markers;
- the rows of a listing, and the listing that they make up.

The column of texts is wider than every text in it. So a blank follows the text, and the cut of
a long row, which is made at blanks, cannot reach back into it. Only the column of indices could
push that blank out of the row. It is as wide as the largest index.
-/

namespace MiniatureMachine

namespace LineError

def markers : List String :=
  [malformed.marker, missingLineNumber.marker, (badLineNumber "" 0).marker,
    (unknownOperation "").marker, (operand .empty).marker, (register "").marker]

private theorem marker_mem_markers (error : LineError) : error.marker ∈ markers := by
  cases error <;> simp [markers, marker]

end LineError

namespace Listing

open Text (isBlank padEnd)

/-! ## The column of texts -/

/-- A text that leaves room for a blank behind it in a column. -/
structure FitsColumn (width : Nat) (text : String) : Prop where
  short : text.length < width
  present : text.toList ≠ []
  unbroken : '\n' ∉ text.toList
  solid : ∀ c ∈ text.toList.getLast?, isBlank c = false

theorem FitsColumn.mono {width other : Nat} {text : String} (fits : FitsColumn width text)
    (le : width ≤ other) : FitsColumn other text :=
  { fits with short := Nat.lt_of_lt_of_le fits.short le }

private theorem fitsColumn_layout (word : Word) : FitsColumn encodingWidth word.layout where
  short := by
    rw [word.length_layout]
    decide
  present := by
    rw [Word.toList_layout]
    exact List.append_ne_nil_of_right_ne_nil _ (List.cons_ne_nil _ _)
  unbroken member := by
    have known := Image.isImageChar_of_mem_layout member
    cases known
  solid := word.solid_layout

private theorem fitsColumn_marker (error : LineError) : FitsColumn markerWidth error.marker := by
  have texts : ∀ text ∈ LineError.markers, text.length < markerWidth ∧
      text.toList ≠ [] ∧ '\n' ∉ text.toList ∧
      text.toList.getLast?.all (fun c => !isBlank c) = true := by
    decide +kernel
  obtain ⟨short, present, unbroken, solid⟩ := texts _ error.marker_mem_markers
  exact ⟨short, present, unbroken, by simpa [Option.all_eq_true] using solid⟩

/-! ## Rows -/

/-- The index of a line in its column, and the text of the line behind it. -/
def opening (indexWidth : Nat) (line : AssembledLine) : String :=
  padEnd indexWidth (toString line.index) ++ " : " ++ line.text

/-- A row of the listing shows a line as far as it goes: it fits, it ends in no blank, it is one
line, and it is a front part of the index in its column, the text in its column and the source. -/
structure IsRowOf (indexWidth textWidth : Nat) (line : AssembledLine) (row : String) : Prop where
  short : row.length ≤ 76
  solid : ∀ c ∈ row.toList.getLast?, isBlank c = false
  unbroken : '\n' ∉ row.toList
  isPrefix : row.toList <+:
    (padEnd indexWidth (toString line.index) ++ " : " ++ padEnd textWidth line.text ++
      line.source).toList

section Rows

variable {indexWidth textWidth : Nat} {line : AssembledLine}

private theorem toList_opening (indexWidth : Nat) (line : AssembledLine) :
    (opening indexWidth line).toList = (toString line.index).toList ++
      (List.replicate (indexWidth - (toString line.index).length) ' ' ++
        (' ' :: ':' :: ' ' :: line.text.toList)) := by
  simp only [opening, String.toList_append, Text.toList_padEnd, List.append_assoc]
  rfl

/-- A row begins with a digit. -/
theorem head?_opening (indexWidth : Nat) (line : AssembledLine) :
    ∃ c, (opening indexWidth line).toList.head? = some c ∧ isBlank c = false := by
  obtain ⟨c, rest, digits⟩ :=
    List.exists_cons_of_ne_nil (Text.toList_toString_ne_nil line.index)
  refine ⟨c, ?_, ?_⟩
  · rw [toList_opening, digits]
    rfl
  · exact Text.isBlank_of_mem_toString (by rw [digits]; exact List.mem_cons_self)

variable (fits : FitsColumn textWidth line.text)

include fits

private theorem unbroken_opening : '\n' ∉ (opening indexWidth line).toList := by
  rw [toList_opening]
  simp only [List.mem_append, List.mem_cons, List.mem_replicate, not_or]
  refine ⟨fun digit => ?_, ?_, by decide, by decide, by decide, fits.unbroken⟩
  · cases Text.isDigit_of_mem_toString digit
  · rintro ⟨-, ⟨⟩⟩

private theorem solid_getLast?_opening :
    ∀ c ∈ (opening indexWidth line).toList.getLast?, isBlank c = false := by
  rw [opening, String.toList_append, List.getLast?_append_of_ne_nil _ fits.present]
  exact fits.solid

/-- Behind the text of a line there is a blank. -/
theorem exists_fullRow_eq (indexWidth : Nat) :
    ∃ blanks, (∀ c ∈ blanks, c = ' ') ∧ (fullRow indexWidth textWidth line).toList =
      (opening indexWidth line).toList ++ ' ' :: (blanks ++ line.source.toList) := by
  obtain ⟨room, behind⟩ := Nat.exists_eq_add_of_lt fits.short
  refine ⟨List.replicate room ' ', fun c => List.eq_of_mem_replicate, ?_⟩
  have padding : textWidth - line.text.length = room + 1 := by omega
  simp only [fullRow, opening, String.toList_append, Text.toList_padEnd, padding,
    List.replicate_succ, List.append_assoc, List.cons_append]

/-- The row of a line shows it as far as it goes. -/
theorem isRowOf_row (oneLine : '\n' ∉ line.source.toList) :
    IsRowOf indexWidth textWidth line (row indexWidth textWidth line) := by
  obtain ⟨blanks, areBlanks, shownRow⟩ := exists_fullRow_eq fits indexWidth
  have cuts := cutsTo_firstLine rowWidth (fullRow indexWidth textWidth line).toList
  have shown : (row indexWidth textWidth line).toList =
      firstLine rowWidth (fullRow indexWidth textWidth line).toList := String.toList_ofList
  refine ⟨?_, ?_, ?_, ?_⟩
  · rw [← String.length_toList, shown]
    exact cuts.length_le
  · rw [shown]
    refine cuts.solid_getLast? fun c first => ?_
    obtain ⟨digit, begins, solid⟩ := head?_opening indexWidth line
    rw [shownRow, List.head?_append, begins] at first
    cases first
    exact solid
  · intro member
    rw [shown] at member
    have inRow := cuts.isPrefix.subset member
    rw [shownRow, List.mem_append, List.mem_cons, List.mem_append] at inRow
    rcases inRow with inOpening | isSpace | inBlanks | inSource
    · exact unbroken_opening fits inOpening
    · cases isSpace
    · cases areBlanks _ inBlanks
    · exact oneLine inSource
  · rw [shown]
    exact cuts.isPrefix

/-- The index and the text of a line stand in its row, unless the column of indices is so wide
that it takes more than half of the row. -/
theorem opening_isPrefix_row (numbered : (toString line.index).length ≤ indexWidth)
    (narrow : indexWidth + textWidth < 74) :
    (opening indexWidth line).toList <+: (row indexWidth textWidth line).toList := by
  obtain ⟨blanks, -, shown⟩ := exists_fullRow_eq fits indexWidth
  have cuts := cutsTo_firstLine rowWidth (fullRow indexWidth textWidth line).toList
  rw [shown] at cuts
  rw [row, String.toList_ofList, shown]
  refine cuts.keeps Text.isBlank_space (solid_getLast?_opening fits) ?_
  · have short := fits.short
    rw [String.length_toList, opening, String.length_append, String.length_append,
      Text.length_padEnd, Nat.max_eq_left numbered, rowWidth]
    have separator : " : ".length = 3 := rfl
    omega

end Rows

/-! ## The columns of a program -/

section Columns

variable {dialect : Dialect} {source : String} {assembled : AssembledLine}

private theorem encodingWidth_le_textWidth (program : AssembledProgram) :
    encodingWidth ≤ textWidth program := by
  unfold textWidth
  split <;> decide

/-- Every text is narrower than its column: the markers need the wider column, and where a
marker is shown the program is not valid. -/
theorem fitsColumn_text (member : assembled ∈ (AssembledProgram.ofSource dialect source).lines) :
    FitsColumn (textWidth (.ofSource dialect source)) assembled.text := by
  obtain ⟨index, line, -, rfl⟩ := AssembledProgram.mem_lines_iff.mp member
  cases encoded : AssembledLine.encode dialect index line.text with
  | ok bits =>
      obtain ⟨_, word, -, rfl, -⟩ := Instruction.written?_of_encode encoded
      have shown : (AssembledLine.ofSource dialect index line).text = word.layout := by
        simp [AssembledLine.text, AssembledLine.ofSource, encoded]
      rw [shown]
      exact (fitsColumn_layout word).mono (encodingWidth_le_textWidth _)
  | error error =>
      have shown : (AssembledLine.ofSource dialect index line).text = error.marker := by
        simp [AssembledLine.text, AssembledLine.ofSource, encoded]
      have invalid : ¬(AssembledProgram.ofSource dialect source).isValid = true := by
        rw [AssembledProgram.isValid_iff]
        rintro ⟨-, all⟩
        obtain ⟨bits, accepted⟩ := all _ member
        cases encoded.symm.trans accepted
      rw [shown, textWidth, if_neg invalid]
      exact fitsColumn_marker error

private theorem indexWidth_ofSource (dialect : Dialect) (present : SourceLine.program source ≠ []) :
    indexWidth (.ofSource dialect source) =
      (toString ((SourceLine.program source).length - 1)).length := by
  have widths : (AssembledProgram.ofSource dialect source).lines.map
      (fun line => (toString line.index).length) =
        (List.range (SourceLine.program source).length).map fun index =>
          (toString index).length := by
    rw [AssembledProgram.ofSource, AssembledProgram.ofLines, List.map_map,
      List.range_eq_range', ← List.zipIdx_map_snd 0 (SourceLine.program source), List.map_map]
    rfl
  have positive := List.length_pos_iff.mpr present
  have widest : ((List.range (SourceLine.program source).length).map fun index =>
      (toString index).length).max? =
        some (toString ((SourceLine.program source).length - 1)).length := by
    rw [List.max?_eq_some_iff]
    constructor
    · exact List.mem_map.mpr ⟨_, List.mem_range.mpr (by omega), rfl⟩
    · rw [List.forall_mem_map]
      intro index inRange
      rw [List.mem_range] at inRange
      exact Text.length_toString_mono (by omega)
  rw [indexWidth, widths, widest, Option.getD_some]

end Columns

end Listing

/-! ## The listing -/

namespace SourceLine

private theorem length_program (source : String) :
    (program source).length = (wholeLines source).countP fun line => ¬IsIdle line := by
  rw [program_eq_numbered, length_numbered, wholeLines]

/-- A text has no more program lines than bytes, but for one. -/
theorem length_program_le (source : String) :
    (program source).length ≤ source.utf8ByteSize + 1 := by
  have pieces := Text.length_pieces_le (· == '\n') source.toList
  have bytes := Text.length_le_utf8ByteSize source
  rw [String.length_toList] at pieces
  rw [length_program]
  exact Nat.le_trans List.countP_le_length (Nat.le_trans pieces (by omega))

end SourceLine

namespace AssembledProgram

open Listing

variable {dialect : Dialect} {source : String}

private theorem listing_of_present (present : SourceLine.program source ≠ []) :
    (ofSource dialect source).listing =
      (if (ofSource dialect source).isValid then successBanner else failureBanner) ++
        String.join ((rows (ofSource dialect source)).map (· ++ "\n")) ++ "\n" := by
  have nonempty : ¬(ofSource dialect source).lines.isEmpty = true := by
    simpa [ofSource, ofLines] using present
  rw [listing, if_neg nonempty, banner]

private theorem getElem?_rows {index : Nat} {line : SourceLine}
    (stands : SourceLine.StandsAt source index line) :
    (rows (ofSource dialect source))[index]? =
      some (row (indexWidth (ofSource dialect source)) (textWidth (ofSource dialect source))
        (.ofSource dialect index line)) := by
  rw [rows, List.getElem?_map, getElem?_lines_of_standsAt dialect stands, Option.map_some]

/-- The columns in front of a program of no more than 2 ^ 64 lines take less than the row. -/
theorem narrow_columns {size : Nat} (small : size ≤ 2 ^ 64) (valid : Bool) :
    (toString (size - 1)).length + (if valid then 27 else 31) < 74 := by
  have narrow : (toString (size - 1)).length ≤ 42 := by
    rw [Text.length_toString_le_iff (by decide)]
    omega
  split <;> omega

/-- The listing of a source with a program line is its banner, a row for every program line in
their order, and an empty line. The row at a line's index shows that line as far as it goes, in
columns as wide as the largest index and as the verdict asks for. For every source text of less
than 2 ^ 64 bytes it goes past the index and past the encoding or marker of the line. A text would
need more than 10 ^ 42 program lines for its indices to take that place. -/
theorem listing_keeps_every_index_and_text (dialect : Dialect) (source : String)
    (present : ∃ index line, SourceLine.StandsAt source index line) :
    ∃ rows : List String,
      (ofSource dialect source).listing =
        (if (ofSource dialect source).isValid then successBanner else failureBanner) ++
          String.join (rows.map (· ++ "\n")) ++ "\n" ∧
      rows.length =
        (SourceLine.wholeLines source).countP (fun line => ¬SourceLine.IsIdle line) ∧
      ∀ index line, SourceLine.StandsAt source index line → ∃ row, rows[index]? = some row ∧
        IsRowOf (toString (rows.length - 1)).length
          (if (ofSource dialect source).isValid then 27 else 31)
          (.ofSource dialect index line) row ∧
        (source.utf8ByteSize < 2 ^ 64 →
          (opening (toString (rows.length - 1)).length
            (.ofSource dialect index line)).toList <+: row.toList) := by
  have nonempty : SourceLine.program source ≠ [] := by
    obtain ⟨index, line, stands⟩ := present
    intro empty
    have found := SourceLine.getElem?_program_iff.mpr stands
    rw [empty] at found
    cases found
  have count : (rows (ofSource dialect source)).length = (SourceLine.program source).length := by
    simp [rows, ofSource, ofLines]
  refine ⟨rows (ofSource dialect source), listing_of_present nonempty,
    count.trans (SourceLine.length_program source), fun index line stands => ?_⟩
  have fits := fitsColumn_text (List.mem_of_getElem? (getElem?_lines_of_standsAt dialect stands))
  have inside : index < (SourceLine.program source).length :=
    (List.getElem?_eq_some_iff.mp (SourceLine.getElem?_program_iff.mpr stands)).1
  have numbered : (toString index).length ≤
      (toString ((SourceLine.program source).length - 1)).length :=
    Text.length_toString_mono (Nat.le_sub_one_of_lt inside)
  refine ⟨_, getElem?_rows stands, ?_, fun small => ?_⟩
  · rw [count, ← indexWidth_ofSource dialect nonempty]
    exact isRowOf_row fits stands.unbroken
  · have few := SourceLine.length_program_le source
    rw [count, indexWidth_ofSource dialect nonempty]
    exact opening_isPrefix_row fits numbered (narrow_columns (by omega) _)

/-- A line that assembles, with a wide blank and a word that no row has room for. -/
def overlongLine : String :=
  "0 read r1\u3000# yyyyyyyyyyyyyyyyyyyyyyyyyyyyyyyyyyyyyyyy"

/-- The encoding stands in the row of an overlong line, and the marker in that of a bad one. -/
theorem listing_of_overlong_and_bad_line :
    ∃ first second, (ofSource .canonical (overlongLine ++ "\n\n1 frob")).listing =
        failureBanner ++ String.join [first ++ "\n", second ++ "\n"] ++ "\n" ∧
      first.length ≤ 76 ∧ "0 : 0000 0001 0000 0001".toList <+: first.toList ∧
      "1 : ***OPERATION ERROR HERE***".toList <+: second.toList := by
  have stands : SourceLine.StandsAt (overlongLine ++ "\n\n1 frob") 0 ⟨overlongLine, 1⟩ :=
    SourceLine.getElem?_program_iff.mp (by decide +kernel)
  have standsBelow : SourceLine.StandsAt (overlongLine ++ "\n\n1 frob") 1 ⟨"1 frob", 3⟩ :=
    SourceLine.getElem?_program_iff.mp (by decide +kernel)
  obtain ⟨rows, listing, count, shown⟩ :=
    listing_keeps_every_index_and_text .canonical _ ⟨0, _, stands⟩
  obtain ⟨first, isFirst, isRow, keeps⟩ := shown 0 _ stands
  obtain ⟨second, isSecond, -, keepsBelow⟩ := shown 1 _ standsBelow
  have two : rows.length = 2 := count.trans (by decide +kernel)
  obtain ⟨_, _, rfl⟩ := List.length_eq_two.mp two
  obtain rfl := Option.some.inj isFirst
  obtain rfl := Option.some.inj isSecond
  have invalid : ¬(ofSource .canonical (overlongLine ++ "\n\n1 frob")).isValid = true := by
    decide +kernel
  rw [if_neg invalid] at listing
  have opens : "0 : 0000 0001 0000 0001".toList =
      (opening (toString (2 - 1)).length (.ofSource .canonical 0 ⟨overlongLine, 1⟩)).toList := by
    decide +kernel
  have opensBelow : "1 : ***OPERATION ERROR HERE***".toList =
      (opening (toString (2 - 1)).length (.ofSource .canonical 1 ⟨"1 frob", 3⟩)).toList := by
    decide +kernel
  refine ⟨_, _, listing, isRow.short, ?_, ?_⟩
  · rw [opens]
    exact keeps (by decide +kernel)
  · rw [opensBelow]
    exact keepsBelow (by decide +kernel)

end AssembledProgram

end MiniatureMachine
