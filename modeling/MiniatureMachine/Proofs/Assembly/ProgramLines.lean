import MiniatureMachine.Proofs.Assembly.Numbering
import MiniatureMachine.Proofs.Assembly.SourceLayout

/-!
Contract: where the program lines of a source text stand.

Owns:
- the place of a program line among the lines of the source and among the program lines;
- the lines that the assembler selects, by their places;
- that the numbers of the lines grow from line to line;
- the assembled lines of a program as those of its places.

Two counts run beside each other: all lines of the source are numbered from one, and those of
the program are indexed from zero. A line that is idle raises the first count alone.
-/

namespace MiniatureMachine

namespace SourceLine

instance : DecidablePred IsIdle := fun line =>
  decidable_of_iff ((line.find? fun c => !Text.isBlank c).all (· == '#') = true) <| by
    simp [IsIdle, Option.all_eq_true]

/-- The lines of a source, cut at newlines only. -/
def wholeLines (source : String) : List (List Char) :=
  Text.pieces (· == '\n') source.toList

/-- A program line stands in a source: its index counts the program lines above it, its number
counts all lines down to its own, and its text is what is left of that line without the blanks
at its ends. -/
inductive StandsAt (source : String) : (index : Nat) → (line : SourceLine) → Prop
  | intro {place : Nat} {whole : List Char} {text : String}
      (found : (wholeLines source)[place]? = some whole) (solid : ¬IsIdle whole)
      (trimmed : Text.IsTrimOf text.toList whole) :
      StandsAt source (((wholeLines source).take place).countP fun line => ¬IsIdle line)
        ⟨text, place + 1⟩

/-! ## One line -/

/-- A line belongs to the program unless it is idle. -/
theorem isProgramText_trim_iff {line : List Char} :
    isProgramText (Text.trim line) = true ↔ ¬IsIdle line := by
  unfold IsIdle
  rw [← trimStart_eq_find?]
  cases begins : Text.trimStart line with
  | nil => simp [Text.trim, begins, isProgramText]
  | cons c rest =>
      have first : c ∈ (Text.trimStart line).head? := by
        rw [begins]
        rfl
      have solid : Text.isBlank c = false := Text.isBlank_of_head?_trimStart first
      obtain ⟨kept, ends⟩ := Text.exists_trimEnd_append solid [] rest
      rw [List.nil_append] at ends
      rw [Text.trim, begins, ends]
      simp [isProgramText]

theorem ofLine?_eq_some_iff {number : Nat} {whole : List Char} {line : SourceLine} :
    ofLine? number whole = some line ↔
      ¬IsIdle whole ∧ Text.IsTrimOf line.text.toList whole ∧ line.number = number := by
  rw [← isProgramText_trim_iff, ← Text.trim_eq_iff]
  obtain ⟨text, place⟩ := line
  simp only [ofLine?, Option.ite_none_right_eq_some, Option.some.injEq, mk.injEq]
  refine and_congr_right fun _ => and_congr ?_ eq_comm
  constructor
  · rintro rfl
    exact String.toList_ofList.symm
  · intro same
    rw [same, String.ofList_toList]

private theorem ofLine?_isSome_iff {number : Nat} {whole : List Char} :
    (ofLine? number whole).isSome = true ↔ ¬IsIdle whole := by
  rw [← isProgramText_trim_iff, ofLine?]
  split <;> simp_all

private theorem ofLine?_dropCarriageReturn (number : Nat) (line : List Char) :
    ofLine? number (Text.dropCarriageReturn line) = ofLine? number line := by
  unfold Text.dropCarriageReturn
  split
  · rename_i closed
    obtain ⟨front, rfl⟩ := List.getLast?_eq_some_iff.mp closed
    have blank : Text.isBlank '\r' = true := rfl
    rw [List.dropLast_concat, ofLine?, ofLine?, Text.trim_append_blank blank]
  · rfl

/-! ## All lines -/

/-- The program lines among lines of which the first has the number behind a given one. -/
def numbered (start : Nat) (lines : List (List Char)) : List SourceLine :=
  (lines.zipIdx start).filterMap fun entry => ofLine? (entry.2 + 1) entry.1

theorem numbered_cons (start : Nat) (line : List Char) (lines : List (List Char)) :
    numbered start (line :: lines) =
      (ofLine? (start + 1) line).toList ++ numbered (start + 1) lines := by
  rw [numbered, List.zipIdx_cons, List.filterMap_cons]
  cases ofLine? (start + 1) line <;> rfl

private theorem numbered_linesOfPieces (start : Nat) (pieces : List (List Char)) :
    numbered start (Text.linesOfPieces pieces) = numbered start pieces := by
  fun_induction Text.linesOfPieces pieces generalizing start with
  | case1 => rfl
  | case2 last empty =>
      rw [List.isEmpty_iff.mp empty]
      rfl
  | case3 last present => rfl
  | case4 piece next more inductionHypothesis =>
      rw [numbered_cons, numbered_cons, ofLine?_dropCarriageReturn, inductionHypothesis]

/-- Line endings make no difference to the program lines, so newlines alone cut the source. -/
theorem program_eq_numbered (source : String) :
    program source = numbered 0 (Text.pieces (· == '\n') source.toList) := by
  rw [program, Text.lines, ← numbered_linesOfPieces]
  rfl

/-- An idle line is passed over, and every other one is the first of the program lines. -/
theorem numbered_cons_cases (start : Nat) (whole : List Char) (lines : List (List Char)) :
    (IsIdle whole ∧ (∀ number, ofLine? number whole = none) ∧
      numbered start (whole :: lines) = numbered (start + 1) lines) ∨
    (¬IsIdle whole ∧ ∃ line, ofLine? (start + 1) whole = some line ∧
      numbered start (whole :: lines) = line :: numbered (start + 1) lines) := by
  by_cases idle : IsIdle whole
  · have nothing : ∀ number, ofLine? number whole = none := by
      intro number
      rw [← Option.not_isSome_iff_eq_none, ofLine?_isSome_iff]
      exact not_not.mpr idle
    refine .inl ⟨idle, nothing, ?_⟩
    rw [numbered_cons, nothing]
    rfl
  · have present : (ofLine? (start + 1) whole).isSome = true := ofLine?_isSome_iff.mpr idle
    obtain ⟨line, made⟩ := Option.isSome_iff_exists.mp present
    refine .inr ⟨idle, line, made, ?_⟩
    rw [numbered_cons, made]
    rfl

theorem length_numbered (start : Nat) (lines : List (List Char)) :
    (numbered start lines).length = lines.countP fun line => ¬IsIdle line := by
  induction lines generalizing start with
  | nil => rfl
  | cons whole lines inductionHypothesis =>
      rcases numbered_cons_cases start whole lines with
        ⟨idle, -, others⟩ | ⟨solid, line, -, others⟩
      · rw [others, inductionHypothesis, List.countP_cons_of_neg (by simpa using idle)]
      · rw [others, List.length_cons, inductionHypothesis,
          List.countP_cons_of_pos (by simpa using solid)]

private theorem getElem?_numbered_iff {start index : Nat} {lines : List (List Char)}
    {line : SourceLine} :
    (numbered start lines)[index]? = some line ↔
      ∃ place whole, lines[place]? = some whole ∧
        index = ((lines.take place).countP fun line => ¬IsIdle line) ∧
          ofLine? (start + place + 1) whole = some line := by
  induction lines generalizing start index with
  | nil => simp [numbered]
  | cons first lines inductionHypothesis =>
      have shift : ∀ place, start + 1 + place + 1 = start + (place + 1) + 1 := by omega
      rw [← Nat.or_exists_add_one]
      simp only [List.getElem?_cons_zero, List.getElem?_cons_succ, List.take_zero,
        List.take_succ_cons, List.countP_nil, Option.some.injEq, exists_eq_left', Nat.add_zero]
      rcases numbered_cons_cases start first lines with
        ⟨idle, nothing, others⟩ | ⟨solid, program, made, others⟩
      · rw [others, inductionHypothesis, nothing]
        simp [idle, shift]
      · rw [others, made]
        cases index with
        | zero => simp [solid]
        | succ index =>
            rw [List.getElem?_cons_succ, inductionHypothesis]
            simp [solid, shift]

theorem getElem?_program_iff {source : String} {index : Nat} {line : SourceLine} :
    (program source)[index]? = some line ↔ StandsAt source index line := by
  rw [program_eq_numbered, getElem?_numbered_iff]
  constructor
  · rintro ⟨place, whole, found, rfl, made⟩
    obtain ⟨solid, trimmed, placed⟩ := ofLine?_eq_some_iff.mp made
    obtain ⟨text, number⟩ := line
    dsimp only at placed
    obtain rfl : number = place + 1 := by omega
    exact .intro found solid trimmed
  · rintro ⟨found, solid, trimmed⟩
    exact ⟨_, _, found, rfl, ofLine?_eq_some_iff.mpr ⟨solid, trimmed, by dsimp only; omega⟩⟩

/-- At every place there is one program line at most. -/
theorem StandsAt.unique {source : String} {index : Nat} {line other : SourceLine}
    (stands : StandsAt source index line) (alsoStands : StandsAt source index other) :
    line = other := by
  rw [← getElem?_program_iff] at stands alsoStands
  exact Option.some.inj (stands.symm.trans alsoStands)

/-- The text of a program line is one line. -/
theorem StandsAt.unbroken {source : String} {index : Nat} {line : SourceLine}
    (stands : StandsAt source index line) : '\n' ∉ line.text.toList := by
  obtain ⟨found, -, ⟨⟨front, back, rfl, -, -⟩, -, -⟩⟩ := stands
  intro member
  have solid := Text.solid_of_mem_pieces (List.mem_of_getElem? found) '\n' (by simp [member])
  cases solid

private theorem lt_number_of_mem_numbered {start : Nat} {lines : List (List Char)}
    {line : SourceLine}
    (member : line ∈ numbered start lines) : start < line.number := by
  obtain ⟨index, found⟩ := List.mem_iff_getElem?.mp member
  obtain ⟨place, whole, -, -, made⟩ := getElem?_numbered_iff.mp found
  obtain ⟨-, -, placed⟩ := ofLine?_eq_some_iff.mp made
  omega

private theorem pairwise_numbered (start : Nat) (lines : List (List Char)) :
    (numbered start lines).Pairwise fun former later => former.number < later.number := by
  induction lines generalizing start with
  | nil => exact .nil
  | cons whole lines inductionHypothesis =>
      rcases numbered_cons_cases start whole lines with ⟨-, -, others⟩ | ⟨-, line, made, others⟩
      · rw [others]
        exact inductionHypothesis (start + 1)
      · rw [others]
        refine .cons (fun later member => ?_) (inductionHypothesis (start + 1))
        obtain ⟨-, -, placed⟩ := ofLine?_eq_some_iff.mp made
        have behind := lt_number_of_mem_numbered member
        omega

theorem pairwise_program (source : String) :
    (program source).Pairwise fun former later => former.number < later.number := by
  rw [program_eq_numbered]
  exact pairwise_numbered 0 _

end SourceLine

/-! ## Assembled lines -/

namespace AssembledProgram

variable {dialect : Dialect} {source : String}

theorem getElem?_lines_of_standsAt (dialect : Dialect) {index : Nat} {line : SourceLine}
    (stands : SourceLine.StandsAt source index line) :
    (ofSource dialect source).lines[index]? = some (.ofSource dialect index line) := by
  rw [ofSource, getElem?_ofLines, SourceLine.getElem?_program_iff.mpr stands, Option.map_some]

theorem mem_lines_iff {assembled : AssembledLine} :
    assembled ∈ (ofSource dialect source).lines ↔
      ∃ index line, SourceLine.StandsAt source index line ∧
        assembled = .ofSource dialect index line := by
  constructor
  · intro member
    obtain ⟨index, found⟩ := List.mem_iff_getElem?.mp member
    rw [ofSource, getElem?_ofLines, Option.map_eq_some_iff] at found
    obtain ⟨line, found, rfl⟩ := found
    exact ⟨index, line, SourceLine.getElem?_program_iff.mp found, rfl⟩
  · rintro ⟨index, line, stands, rfl⟩
    exact List.mem_of_getElem? (getElem?_lines_of_standsAt dialect stands)

end AssembledProgram

end MiniatureMachine
