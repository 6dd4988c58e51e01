import MiniatureMachine.Proofs.Assembly.FieldEncoding
import MiniatureMachine.Proofs.Assembly.Numbering
import MiniatureMachine.Proofs.Assembly.ProgramLines

/-!
Contract: every line that fails is diagnosed, once, at its place and for the first reason.

Owns:
- what is understood of a line before its operands and its number are checked;
- the first check that a line does not pass, with its error;
- the diagnostics of a source text.

The checks come in a fixed order: the grammar, the name of the operation, the count of the
operands, the operands from the left, the line number. A line that fails several of them is
diagnosed for the first one only.
-/

namespace MiniatureMachine

open Encoding (FirstRefused HaveValues)

namespace Statement

variable {line : String}

/-- A number is missed exactly where a line is what should follow one. -/
theorem parse_eq_missing_iff_reading :
    parse line = .error .missingLineNumber ↔
      ∃ reading : OperationReading, reading.text = line.toList := by
  rw [OperationReading.exists_text_iff]
  constructor
  · intro missing
    rw [parse_of_unnumbered (unnumbered_of_missing missing)] at missing
    split at missing
    · assumption
    · cases missing
  · intro read
    obtain ⟨reading, apart⟩ := OperationReading.exists_text_iff.mpr read
    rw [parse_of_unnumbered, if_pos read]
    intro c first
    exact (reading.beginsForeign_text c (apart ▸ first)).1

private theorem parse_eq_malformed_iff :
    parse line = .error .malformed ↔
      (∀ reading : OperationReading, reading.text ≠ line.toList) ∧
        ∀ reading : Reading, reading.line ≠ line.toList := by
  rw [← not_exists, ← not_exists, ← parse_eq_missing_iff_reading, exists_reading_iff]
  constructor
  · intro malformed
    rw [malformed]
    exact ⟨nofun, nofun⟩
  · rintro ⟨unmissed, unread⟩
    rcases parse_cases line with read | missing | malformed
    · exact absurd read unread
    · exact absurd missing unmissed
    · exact malformed

end Statement

namespace AssembledLine

/-! ## The first failing check -/

/-- A line follows the grammar and names an operation. What is left to check are the tokens
of its operands and its number. -/
inductive Understood (dialect : Dialect) (text : String) :
    (number : List Char) → Operation → (tokens : List String) → Prop
  | intro (reading : Statement.Reading) (apart : reading.line = text.toList)
      {operation : Operation} {tokens : List String}
      (resolved : dialect.resolve? (String.ofList reading.operation.name) = some operation)
      (tokenizes : Statement.Tokenizes reading.operation.operands tokens) :
      Understood dialect text reading.number operation tokens

/-- The first check that a line at a place of the program does not pass. -/
inductive FirstFailure (dialect : Dialect) (index : Nat) (text : String) : LineError → Prop
  | grammar (unnumbered : ∀ reading : Statement.OperationReading, reading.text ≠ text.toList)
      (unread : ∀ reading : Statement.Reading, reading.line ≠ text.toList) :
      FirstFailure dialect index text .malformed
  /-- Without a number in front, the line is what should follow one. -/
  | missingNumber (reading : Statement.OperationReading) (apart : reading.text = text.toList) :
      FirstFailure dialect index text .missingLineNumber
  | name (reading : Statement.Reading) (apart : reading.line = text.toList)
      (unknown : dialect.resolve? (String.ofList reading.operation.name) = none) :
      FirstFailure dialect index text (.unknownOperation (String.ofList reading.operation.name))
  | count {number : List Char} {operation : Operation} {tokens : List String}
      (understood : Understood dialect text number operation tokens)
      (differ : tokens.length ≠ operation.operandSlots.length) :
      FirstFailure dialect index text
        (.operand (.wrongCount tokens.length operation.operandSlots.length))
  | operand {number : List Char} {operation : Operation} {tokens : List String}
      {error : LineError} (understood : Understood dialect text number operation tokens)
      (counted : tokens.length = operation.operandSlots.length)
      (leftmost : FirstRefused operation.operandSlots tokens error) :
      FirstFailure dialect index text error
  | number {number : List Char} {operation : Operation} {tokens : List String}
      {values : List Int} (understood : Understood dialect text number operation tokens)
      (valid : HaveValues operation.operandSlots tokens values)
      (differs : ¬Text.Numeral 10 number index) :
      FirstFailure dialect index text (.badLineNumber (String.ofList number) index)

variable {dialect : Dialect} {index : Nat} {text : String} {error : LineError}

theorem encode_of_unread (unread : Statement.parse text = .error error) :
    encode dialect index text = .error error := by
  unfold encode
  rw [unread]
  rfl

private theorem encode_of_unknown {statement : Statement}
    (read : Statement.parse text = .ok statement)
    (unknown : dialect.resolve? statement.operation = none) :
    encode dialect index text = .error (.unknownOperation statement.operation) := by
  unfold encode
  rw [read]
  simp only [bind, Except.bind, unknown]
  rfl

private theorem encode_of_resolved {statement : Statement} {operation : Operation}
    (read : Statement.parse text = .ok statement)
    (resolved : dialect.resolve? statement.operation = some operation) :
    encode dialect index text = (do
      let bits ← Encoding.ofOperands operation statement.operands
      if Text.decimal? statement.number.toList = some index then
        return bits
      else
        throw (.badLineNumber statement.number index)) := by
  unfold encode
  rw [read]
  simp only [bind, Except.bind, resolved]

/-- An understood line is encoded with its operands, and then its number is looked at. -/
theorem Understood.encode_eq {number : List Char} {operation : Operation} {tokens : List String}
    (understood : Understood dialect text number operation tokens) :
    ∃ operands, Statement.tokens operands = tokens ∧
      encode dialect index text = (do
        let bits ← Encoding.ofOperands operation operands
        if Text.decimal? number = some index then
          return bits
        else
          throw (.badLineNumber (String.ofList number) index)) := by
  obtain ⟨reading, apart, resolved, tokenizes⟩ := understood
  have read := Statement.parse_eq_ok_iff.mpr ⟨reading, apart, rfl⟩
  refine ⟨String.ofList reading.operation.operands, ?_, ?_⟩
  · rwa [← Statement.tokenizes_iff, String.toList_ofList]
  · rw [encode_of_resolved read resolved]
    simp only [Statement.Reading.statement, String.toList_ofList]

private theorem encode_of_firstFailure (failure : FirstFailure dialect index text error) :
    encode dialect index text = .error error := by
  cases failure with
  | grammar unnumbered unread =>
      exact encode_of_unread (Statement.parse_eq_malformed_iff.mpr ⟨unnumbered, unread⟩)
  | missingNumber reading apart =>
      exact encode_of_unread (Statement.parse_eq_missing_iff_reading.mpr ⟨reading, apart⟩)
  | name reading apart unknown =>
      exact encode_of_unknown (Statement.parse_eq_ok_iff.mpr ⟨reading, apart, rfl⟩) unknown
  | count understood differ =>
      obtain ⟨operands, rfl, encodes⟩ := understood.encode_eq
      rw [encodes, Encoding.ofOperands_of_miscounted differ]
      rfl
  | operand understood counted leftmost =>
      obtain ⟨operands, rfl, encodes⟩ := understood.encode_eq
      rw [encodes, (Encoding.Assembles.refused counted leftmost).ofOperands_eq]
      rfl
  | number understood valid differs =>
      obtain ⟨operands, rfl, encodes⟩ := understood.encode_eq
      obtain ⟨bits, accepted⟩ := Encoding.ofOperands_of_haveValues valid
      rw [encodes, accepted]
      exact if_neg (mt Text.numeral_ten_iff.mpr differs)

private theorem firstFailure_of_encode (failed : encode dialect index text = .error error) :
    FirstFailure dialect index text error := by
  rcases Statement.parse_cases text with ⟨statement, read⟩ | missing | malformed
  · obtain ⟨reading, apart, rfl⟩ := Statement.parse_eq_ok_iff.mp read
    cases resolved : dialect.resolve? (String.ofList reading.operation.name) with
    | none =>
        cases failed.symm.trans (encode_of_unknown read resolved)
        exact .name reading apart resolved
    | some operation =>
        obtain ⟨operands, listed⟩ :
            ∃ operands, operands = String.ofList reading.operation.operands := ⟨_, rfl⟩
        have tokenizes := Statement.tokenizes_iff.mpr (rfl : Statement.tokens operands = _)
        rw [listed, String.toList_ofList, ← listed] at tokenizes
        have understood := Understood.intro reading apart resolved tokenizes
        have assembles := Encoding.assembles_ofOperands operation operands
        rw [encode_of_resolved read resolved, Statement.Reading.statement, ← listed] at failed
        cases made : Encoding.ofOperands operation operands with
        | error refusal =>
            rw [made] at assembles failed
            cases failed
            cases assembles with
            | wrongCount differ => exact .count understood differ
            | refused counted leftmost => exact .operand understood counted leftmost
        | ok bits =>
            rw [made] at assembles failed
            cases assembles with
            | @word values word valid =>
                change (if Text.decimal? (String.ofList reading.number).toList = some index then
                  Except.ok word.layout else .error _) = _ at failed
                rw [String.toList_ofList] at failed
                split at failed
                · cases failed
                · rename_i differs
                  cases failed
                  exact .number understood valid (mt Text.numeral_ten_iff.mp differs)
  · obtain ⟨reading, apart⟩ := Statement.parse_eq_missing_iff_reading.mp missing
    cases failed.symm.trans (encode_of_unread missing)
    exact .missingNumber reading apart
  · obtain ⟨unnumbered, unread⟩ := Statement.parse_eq_malformed_iff.mp malformed
    cases failed.symm.trans (encode_of_unread malformed)
    exact .grammar unnumbered unread

theorem encode_eq_error_iff :
    encode dialect index text = .error error ↔ FirstFailure dialect index text error :=
  ⟨firstFailure_of_encode, encode_of_firstFailure⟩

theorem diagnostic?_eq_some_iff {line : AssembledLine} {diagnostic : Diagnostic} :
    line.diagnostic? = some diagnostic ↔
      line.encoding = .error diagnostic.error ∧ diagnostic.index = line.index ∧
        diagnostic.sourceLine = line.sourceLine ∧ diagnostic.text = line.source := by
  obtain ⟨index, sourceLine, encoding, source⟩ := line
  obtain ⟨index', sourceLine', error, text⟩ := diagnostic
  cases encoding with
  | ok bits => simp [diagnostic?]
  | error error' =>
      simp only [diagnostic?, Option.some.injEq, Diagnostic.mk.injEq, Except.error.injEq]
      tauto

private theorem diagnostic?_eq_none_iff {line : AssembledLine} :
    line.diagnostic? = none ↔ ∃ bits, line.encoding = .ok bits := by
  unfold diagnostic?
  cases line.encoding <;> simp

end AssembledLine

/-! ## The diagnostics of a program -/

/-- A diagnostic is right about a source: the line that it names stands at its place, and
fails for its reason. -/
structure Diagnostic.IsRight (dialect : Dialect) (source : String) (diagnostic : Diagnostic) :
    Prop where
  stands : SourceLine.StandsAt source diagnostic.index ⟨diagnostic.text, diagnostic.sourceLine⟩
  fails : AssembledLine.FirstFailure dialect diagnostic.index diagnostic.text diagnostic.error

/-- A place comes before another, by both of its numbers. -/
def Diagnostic.Precedes (former later : Diagnostic) : Prop :=
  former.index < later.index ∧ former.sourceLine < later.sourceLine

namespace AssembledProgram

variable {dialect : Dialect} {source : String}

theorem mem_diagnostics_iff {diagnostic : Diagnostic} :
    diagnostic ∈ (ofSource dialect source).diagnostics ↔ diagnostic.IsRight dialect source := by
  rw [diagnostics, List.mem_filterMap]
  constructor
  · rintro ⟨assembled, member, diagnosed⟩
    obtain ⟨index, line, stands, rfl⟩ := mem_lines_iff.mp member
    obtain ⟨failed, sameIndex, sameLine, sameText⟩ :=
      AssembledLine.diagnostic?_eq_some_iff.mp diagnosed
    obtain ⟨_, _, error, _⟩ := diagnostic
    cases sameIndex
    cases sameLine
    cases sameText
    exact ⟨stands, AssembledLine.encode_eq_error_iff.mp failed⟩
  · rintro ⟨stands, fails⟩
    refine ⟨_, mem_lines_iff.mpr ⟨_, _, stands, rfl⟩, ?_⟩
    exact AssembledLine.diagnostic?_eq_some_iff.mpr
      ⟨AssembledLine.encode_eq_error_iff.mpr fails, rfl, rfl, rfl⟩

/-- Both numbers of the assembled lines grow. -/
theorem pairwise_lines (dialect : Dialect) (source : String) :
    (ofSource dialect source).lines.Pairwise fun former later =>
      former.index < later.index ∧ former.sourceLine < later.sourceLine := by
  have numbers := List.pairwise_iff_getElem.mp (SourceLine.pairwise_program source)
  rw [List.pairwise_iff_getElem]
  intro index other inLines otherInLines before
  simp only [ofSource, ofLines, List.getElem_map, List.getElem_zipIdx, Nat.zero_add]
  exact ⟨before, numbers index other _ _ before⟩

private theorem pairwise_diagnostics (dialect : Dialect) (source : String) :
    (ofSource dialect source).diagnostics.Pairwise Diagnostic.Precedes := by
  refine (pairwise_lines dialect source).filterMap _ ?_
  intro former later precedes diagnostic diagnosed diagnostic' diagnosed'
  obtain ⟨-, index, sourceLine, -⟩ := AssembledLine.diagnostic?_eq_some_iff.mp diagnosed
  obtain ⟨-, index', sourceLine', -⟩ := AssembledLine.diagnostic?_eq_some_iff.mp diagnosed'
  rwa [Diagnostic.Precedes, index, index', sourceLine, sourceLine']

/-- Among diagnostics whose numbers grow, each is the only one of its line. -/
theorem filter_index_of_mem {diagnostics : List Diagnostic} {diagnostic : Diagnostic}
    (grow : diagnostics.Pairwise Diagnostic.Precedes) (member : diagnostic ∈ diagnostics) :
    diagnostics.filter (·.index = diagnostic.index) = [diagnostic] := by
  obtain ⟨front, back, rfl⟩ := List.append_of_mem member
  obtain ⟨-, behind, before⟩ := List.pairwise_append.mp grow
  have inFront : ∀ other ∈ front, other.index ≠ diagnostic.index := fun other inFront =>
    Nat.ne_of_lt (before other inFront diagnostic List.mem_cons_self).1
  have inBack : ∀ other ∈ back, other.index ≠ diagnostic.index := fun other inBack =>
    Nat.ne_of_gt ((List.pairwise_cons.mp behind).1 other inBack).1
  rw [List.filter_append, List.filter_cons_of_pos (by simp),
    List.filter_eq_nil_iff.mpr (by simpa using inFront),
    List.filter_eq_nil_iff.mpr (by simpa using inBack)]
  rfl

private theorem isValid_iff_diagnostics {program : AssembledProgram} :
    program.isValid = true ↔ program.lines ≠ [] ∧ program.diagnostics = [] := by
  rw [isValid_iff, diagnostics, List.filterMap_eq_nil_iff]
  simp only [AssembledLine.diagnostic?_eq_none_iff]

section Places

variable {index : Nat} {line : SourceLine} (stands : SourceLine.StandsAt source index line)

include stands

private theorem filter_diagnostics_of_encoded {bits : String}
    (encoded : AssembledLine.encode dialect index line.text = .ok bits) :
    (ofSource dialect source).diagnostics.filter (·.index = index) = [] := by
  rw [List.filter_eq_nil_iff]
  intro diagnostic member here
  obtain ⟨elsewhere, fails⟩ := mem_diagnostics_iff.mp member
  have failed := AssembledLine.encode_eq_error_iff.mpr fails
  rw [of_decide_eq_true here] at elsewhere failed
  cases stands.unique elsewhere
  cases encoded.symm.trans failed

private theorem filter_diagnostics_of_failed {error : LineError}
    (failed : AssembledLine.encode dialect index line.text = .error error) :
    (ofSource dialect source).diagnostics.filter (·.index = index) =
      [⟨index, line.number, error, line.text⟩] := by
  have right : Diagnostic.IsRight dialect source ⟨index, line.number, error, line.text⟩ :=
    ⟨stands, AssembledLine.encode_eq_error_iff.mp failed⟩
  exact filter_index_of_mem (pairwise_diagnostics dialect source) (mem_diagnostics_iff.mpr right)

end Places

private theorem lines_ne_nil_iff_standsAt :
    (ofSource dialect source).lines ≠ [] ↔ ∃ index line, SourceLine.StandsAt source index line := by
  constructor
  · intro present
    obtain ⟨assembled, member⟩ := List.exists_mem_of_ne_nil _ present
    obtain ⟨index, line, stands, -⟩ := mem_lines_iff.mp member
    exact ⟨index, line, stands⟩
  · rintro ⟨index, line, stands⟩
    exact List.ne_nil_of_mem (mem_lines_iff.mpr ⟨index, line, stands, rfl⟩)

/-- In every source text, the program lines are assembled in their places. A line that is
encoded has no diagnostic, and one that is not has exactly one. Each diagnostic names the place
of its line in the source and in the program and the first check that the line does not pass,
and each such line has it. Both places grow from one diagnostic to the next. The program is
valid when there is a program line and no diagnostic. -/
theorem diagnostics_tell_every_failure (dialect : Dialect) (source : String) :
    (∀ index line, SourceLine.StandsAt source index line → ∃ encoding,
      (ofSource dialect source).lines[index]? = some ⟨index, line.number, encoding, line.text⟩ ∧
        (∀ bits, encoding = .ok bits →
          (ofSource dialect source).diagnostics.filter (·.index = index) = []) ∧
        ∀ error, encoding = .error error →
          (ofSource dialect source).diagnostics.filter (·.index = index) =
            [⟨index, line.number, error, line.text⟩]) ∧
      (∀ diagnostic, diagnostic ∈ (ofSource dialect source).diagnostics ↔
        diagnostic.IsRight dialect source) ∧
      (ofSource dialect source).diagnostics.Pairwise Diagnostic.Precedes ∧
      ((ofSource dialect source).isValid = true ↔
        (∃ index line, SourceLine.StandsAt source index line) ∧
          (ofSource dialect source).diagnostics = []) := by
  refine ⟨?_, fun diagnostic => mem_diagnostics_iff, pairwise_diagnostics dialect source, ?_⟩
  · intro index line stands
    exact ⟨AssembledLine.encode dialect index line.text, getElem?_lines_of_standsAt dialect stands,
      fun bits encoded => filter_diagnostics_of_encoded stands encoded,
      fun error failed => filter_diagnostics_of_failed stands failed⟩
  · rw [isValid_iff_diagnostics, lines_ne_nil_iff_standsAt]

/-- Above the fourth program line stand a comment, a blank line and three program lines. -/
example :
    (ofSource .canonical
      "# all wrong\n\n0 frob r1\n halt\n2 add r1\n 7 halt # late").diagnostics =
    [⟨0, 3, .unknownOperation "frob", "0 frob r1"⟩, ⟨1, 4, .missingLineNumber, "halt"⟩,
      ⟨2, 5, .operand (.wrongCount 1 3), "2 add r1"⟩,
      ⟨3, 6, .badLineNumber "7" 3, "7 halt # late"⟩] := by
  decide +kernel

end AssembledProgram

end MiniatureMachine
