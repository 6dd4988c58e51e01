import MiniatureMachine.Proofs.Columns
import MiniatureMachine.Proofs.ImageText
import MiniatureMachine.Proofs.Machine.DumpTable
import MiniatureMachine.Proofs.Machine.Invariant

/-!
Contract: a memory dump shows every cell of the memory, and tells the cells from its text.

Owns:
- the lines of a dump, and the words that they tell;
- the states in which a machine can be found;
- the dumps of two such states.

Every column of a row is as wide for one word as for another. So rows with the same addresses
are equally long before their ends are trimmed, and all that trimming takes are spaces. This is
why nothing is lost when a row is trimmed, and why a row can be cut into its entries again.
-/

namespace MiniatureMachine

/-- The numeral of a word has at most five digits and a sign. -/
theorem Word.length_toString_toInt_le (word : Word) : (toString word.toInt).length ≤ 6 := by
  obtain ⟨lower, upper⟩ := Word.inRange_iff.mp (Word.inRange_toInt word)
  have short : ∀ magnitude : Nat, magnitude ≤ 32768 →
      (toString magnitude).toList.length ≤ 5 := by
    intro magnitude small
    rw [String.length_toList, Text.length_toString_le_iff (by decide)]
    omega
  rw [← String.length_toList]
  rcases Text.toString_int_cases word.toInt with
    ⟨magnitude, value, shown⟩ | ⟨magnitude, value, shown⟩
  · rw [shown]
    exact Nat.le_succ_of_le (short magnitude (by omega))
  · rw [shown]
    exact Nat.succ_le_succ (short magnitude (by omega))

namespace Dump

open Text (padEnd trimEnd isBlank OnlySpaces)

/-! ## The lines of a dump -/

/-- What stands for a code cell: the digits of its word, or a mark that there is none. -/
def patternText : Option Word → String
  | some word => word.layout
  | none => "<malformed>"

/-- The line of a code cell, with the address in three columns and the pattern in 23. -/
def codeRow (address : Nat) (word? : Option Word) : String :=
  padEnd 3 (toString address) ++ ":" ++ padEnd 23 (patternText word?)

/-- A data cell in a row: its address in three columns and its number in seven. -/
def entryText (entry : Nat × Word) : String :=
  padEnd 3 (toString entry.1) ++ ": " ++ padEnd 7 (toString entry.2.toInt)

def fullRow (entries : List (Nat × Word)) : String :=
  " ".intercalate (entries.map entryText)

def rowText (entries : List (Nat × Word)) : String :=
  String.ofList (trimEnd (fullRow entries).toList)

def textLines (code : List (Option Word)) (table : List (List (Nat × Word))) : List String :=
  "Memory Contents:" ::
    (code.zipIdx.map fun entry => codeRow entry.2 entry.1) ++ table.map rowText

/-! ### Code cells -/

private theorem solid_patternText (word? : Option Word) :
    ∀ c ∈ (patternText word?).toList.getLast?, isBlank c = false := by
  cases word? with
  | none =>
      rintro c ⟨⟩
      decide
  | some word => exact word.solid_layout

private theorem patternText_injective : Function.Injective patternText := by
  have marked : ∀ word : Word, word.layout ≠ "<malformed>" := by
    intro word same
    have length := word.length_layout
    rw [same] at length
    cases length
  intro word? other? same
  cases word? with
  | none =>
      cases other? with
      | none => rfl
      | some other => exact absurd same.symm (marked other)
  | some word =>
      cases other? with
      | none => exact absurd same (marked word)
      | some other => exact congrArg some (Word.layout_injective same)

private theorem codeRow_injective (address : Nat) : Function.Injective (codeRow address) := by
  intro word? other? same
  simp only [codeRow, ← String.toList_inj, String.toList_append,
    List.append_cancel_left_eq] at same
  exact patternText_injective
    (Text.eq_of_padEnd_eq (solid_patternText word?) (solid_patternText other?)
      (String.toList_inj.mp same))

private theorem onlySpaces_toString (address : Nat) : OnlySpaces (toString address) :=
  Text.onlySpaces_of_solid fun _ => Text.isBlank_of_mem_toString

private theorem onlySpaces_patternText (word? : Option Word) : OnlySpaces (patternText word?) := by
  cases word? with
  | none => exact Text.onlySpaces_of_all (by decide)
  | some word =>
      intro c member blank
      have known := Image.isImageChar_of_mem_layout member
      simp only [Image.isImageChar, Bool.or_eq_true, beq_iff_eq] at known
      rcases known with (rfl | rfl) | isSpace
      · cases blank
      · cases blank
      · exact isSpace

private theorem onlySpaces_codeRow (address : Nat) (word? : Option Word) :
    OnlySpaces (codeRow address word?) := by
  have colon : OnlySpaces ":" := Text.onlySpaces_of_all (by decide)
  exact (((onlySpaces_toString address).padEnd 3).append colon).append
    ((onlySpaces_patternText word?).padEnd 23)

/-! ### Data cells -/

/-- The number of a cell fits its column, so an entry is as long for one word as for another. -/
theorem length_entryText (entry : Nat × Word) :
    (entryText entry).length = (padEnd 3 (toString entry.1)).length + 9 := by
  have colon : ": ".length = 2 := rfl
  rw [entryText, String.length_append, String.length_append, Text.length_padEnd 7,
    Nat.max_eq_left (Nat.le_succ_of_le entry.2.length_toString_toInt_le), colon]

private theorem entryText_injective (address : Nat) :
    Function.Injective fun word => entryText (address, word) := by
  intro word other same
  have solid : ∀ number : Int, ∀ c ∈ (toString number).toList.getLast?, isBlank c = false :=
    fun _ _ last => Text.isBlank_of_mem_toString_int (List.mem_of_mem_getLast? last)
  simp only [entryText, ← String.toList_inj, String.toList_append,
    List.append_cancel_left_eq] at same
  exact BitVec.eq_of_toInt_eq (Text.toString_int_injective
    (Text.eq_of_padEnd_eq (solid _) (solid _) (String.toList_inj.mp same)))

private theorem onlySpaces_entryText (entry : Nat × Word) : OnlySpaces (entryText entry) := by
  have colon : OnlySpaces ": " := Text.onlySpaces_of_all (by decide)
  have number : OnlySpaces (toString entry.2.toInt) :=
    Text.onlySpaces_of_solid fun _ => Text.isBlank_of_mem_toString_int
  exact (((onlySpaces_toString entry.1).padEnd 3).append colon).append (number.padEnd 7)

/-! ### Rows of data cells -/

theorem onlySpaces_fullRow (entries : List (Nat × Word)) : OnlySpaces (fullRow entries) := by
  have space : OnlySpaces " " := Text.onlySpaces_of_all (by decide)
  unfold fullRow
  induction entries with
  | nil => exact fun c member => by cases member
  | cons entry entries inductionHypothesis =>
      cases entries with
      | nil =>
          rw [List.map_singleton, String.intercalate_singleton]
          exact onlySpaces_entryText entry
      | cons next entries =>
          rw [List.map_cons, List.map_cons, String.intercalate_cons_cons]
          exact ((onlySpaces_entryText entry).append space).append inductionHypothesis

private theorem unbroken_rowText (entries : List (Nat × Word)) :
    '\n' ∉ (rowText entries).toList := by
  rw [rowText, String.toList_ofList]
  intro member
  obtain ⟨gap, parts, -⟩ := Text.exists_eq_trimEnd_append (fullRow entries).toList
  exact (onlySpaces_fullRow entries).unbroken (parts ▸ List.mem_append_left gap member)

/-- A row tells the words at its addresses. -/
theorem eq_of_rowText_eq {entries others : List (Nat × Word)}
    (sameAddresses : entries.map Prod.fst = others.map Prod.fst)
    (same : rowText entries = rowText others) : entries = others := by
  have lengths : ∀ list : List (Nat × Word), (list.map entryText).map String.length =
      (list.map Prod.fst).map fun address => (padEnd 3 (toString address)).length + 9 := by
    intro list
    simp only [List.map_map, Function.comp_def, length_entryText]
  have sameLengths : (entries.map entryText).map String.length =
      (others.map entryText).map String.length := by
    rw [lengths, lengths, sameAddresses]
  obtain ⟨asLong, tells⟩ := Text.intercalate_fixed " " sameLengths
  have sameFull : fullRow entries = fullRow others :=
    Text.eq_of_trimEnd_eq (onlySpaces_fullRow entries) (onlySpaces_fullRow others) asLong
      (String.ofList_inj.mp same)
  have sameTexts := tells sameFull
  clear same lengths sameLengths asLong tells sameFull
  induction entries generalizing others with
  | nil => exact (List.map_eq_nil_iff.mp sameTexts.symm).symm
  | cons entry entries inductionHypothesis =>
      cases others with
      | nil => cases sameTexts
      | cons other others =>
          obtain ⟨address, word⟩ := entry
          obtain ⟨otherAddress, otherWord⟩ := other
          simp only [List.map_cons, List.cons.injEq] at sameAddresses sameTexts
          obtain ⟨rfl, laterAddresses⟩ := sameAddresses
          obtain rfl := entryText_injective address sameTexts.1
          rw [inductionHypothesis laterAddresses sameTexts.2]

/-! ### All lines -/

/-- No line of a dump has a newline in it, so that the dump determines its lines. -/
theorem unbroken_textLines (code : List (Option Word)) (table : List (List (Nat × Word))) :
    ∀ line ∈ textLines code table, '\n' ∉ line.toList := by
  intro line member
  rcases List.mem_append.mp member with inFront | inTable
  · rcases List.mem_cons.mp inFront with rfl | inCode
    · decide
    · obtain ⟨entry, -, rfl⟩ := List.mem_map.mp inCode
      exact (onlySpaces_codeRow entry.2 entry.1).unbroken
  · obtain ⟨entries, -, rfl⟩ := List.mem_map.mp inTable
    exact unbroken_rowText entries

/-- The lines of a dump tell the code cells and the words of the data cells. -/
theorem eq_of_textLines_eq {code otherCode : List (Option Word)}
    {table otherTable : List (List (Nat × Word))} (sameSize : code.length = otherCode.length)
    (sameAddresses : table.map (·.map Prod.fst) = otherTable.map (·.map Prod.fst))
    (same : textLines code table = textLines otherCode otherTable) :
    code = otherCode ∧ table = otherTable := by
  simp only [textLines, List.cons_append, List.cons.injEq, true_and] at same
  obtain ⟨sameCode, sameTable⟩ := List.append_inj same (by simp [sameSize])
  constructor
  · refine List.ext_getElem sameSize fun address bound otherBound => ?_
    have sameRow := congrArg (·[address]?) sameCode
    simp only [List.getElem?_map, List.getElem?_zipIdx, List.getElem?_eq_getElem bound,
      List.getElem?_eq_getElem otherBound, Option.map_some, Option.some.injEq] at sameRow
    exact codeRow_injective _ sameRow
  · clear same sameCode sameSize
    induction table generalizing otherTable with
    | nil => exact (List.map_eq_nil_iff.mp sameTable.symm).symm
    | cons entries table inductionHypothesis =>
        cases otherTable with
        | nil => cases sameTable
        | cons others otherTable =>
            simp only [List.map_cons, List.cons.injEq] at sameAddresses sameTable
            rw [eq_of_rowText_eq sameAddresses.1 sameTable.1,
              inductionHypothesis sameAddresses.2 sameTable.2]

/-! ## The dump of a state -/

def codeWord : Option Cell → Option Word
  | some (.code word?) => word?
  | _ => none

def codeCells (state : State) : List (Option Word) :=
  (List.range state.codeSize).map fun address => codeWord (state.cell? address)

private theorem codeText_eq (cell? : Option Cell) :
    codeText cell? = patternText (codeWord cell?) := by
  rcases cell? with _ | (_ | word) | word <;> rfl

private theorem dataLine_eq (state : State) (rows row : Nat) :
    dataLine state rows row = rowText ((rowAddresses state.codeSize rows row).map fun address =>
      (address, state.dataAt address)) ++ "\n" := by
  rw [rowText, fullRow, List.map_map]
  rfl

private theorem codeLines_eq (state : State) :
    (List.range state.codeSize).map (codeLine state) =
      ((codeCells state).zipIdx.map fun entry => codeRow entry.2 entry.1).map (· ++ "\n") := by
  refine List.ext_getElem (by simp [codeCells]) fun address bound otherBound => ?_
  simp [codeCells, codeLine, codeRow, codeText_eq]

private theorem dataLines_eq (state : State) :
    (List.range (rowCount (memorySize - state.codeSize))).map
        (dataLine state (rowCount (memorySize - state.codeSize))) =
      ((table state).map rowText).map (· ++ "\n") := by
  rw [table, List.map_map, List.map_map]
  exact List.map_congr_left fun row _ => dataLine_eq state _ row

theorem memory_eq_join (state : State) :
    memory state = String.join ((textLines (codeCells state) (table state)).map (· ++ "\n")) := by
  have header : "Memory Contents:" ++ "\n" = "Memory Contents:\n" := by decide +kernel
  rw [textLines, List.cons_append, List.map_cons, List.map_append, String.join_cons,
    String.join_append, header, ← codeLines_eq, ← dataLines_eq]
  exact String.append_assoc

/-- The dump of a state depends on the cells and on where the code ends. -/
theorem memory_congr {state other : State} (sameSize : other.codeSize = state.codeSize)
    (sameCells : ∀ address, other.cell? address = state.cell? address) :
    memory other = memory state := by
  have sameCode : codeCells other = codeCells state := by
    rw [codeCells, codeCells, sameSize]
    exact List.map_congr_left fun address _ => congrArg codeWord (sameCells address)
  have sameTable : table other = table state := by
    simp only [table, sameSize, State.dataAt, sameCells]
  rw [memory_eq_join, memory_eq_join, sameCode, sameTable]

structure Shows (state : State) (code : List (Option Word)) (table : List (List (Nat × Word))) :
    Prop where
  /-- The dump is a head line, a line for each code cell and a line for each row. -/
  text : memory state = String.join ((textLines code table).map (· ++ "\n"))
  unbroken : ∀ line ∈ textLines code table, '\n' ∉ line.toList
  codeLength : code.length = state.codeSize
  code : ∀ address word?, code[address]? = some word? ↔
    address < state.codeSize ∧ state.cell? address = some (.code word?)
  height : table.length = (memorySize - state.codeSize + 5) / 6
  narrow : ∀ entries ∈ table, entries ≠ [] ∧ entries.length ≤ 6
  /-- The addresses run down the columns, and each stands with the word of its cell. -/
  place : ∀ row column entry,
    (∃ entries, table[row]? = some entries ∧ entries[column]? = some entry) ↔
      row < table.length ∧ entry.1 = state.codeSize + row + column * table.length ∧
        entry.1 < memorySize ∧ state.cell? entry.1 = some (.data entry.2)
  /-- Every data address has one place. -/
  once : (table.flatten.map Prod.fst).Perm
    (List.range' state.codeSize (memorySize - state.codeSize))

section Sound

variable {image otherImage : Image} {state other : State}

private theorem getElem?_codeCells_iff (sound : state.SoundFor image) {address : Nat}
    {word? : Option Word} : (codeCells state)[address]? = some word? ↔
      address < state.codeSize ∧ state.cell? address = some (.code word?) := by
  rw [codeCells, List.getElem?_map, Option.map_eq_some_iff]
  constructor
  · rintro ⟨_, found, rfl⟩
    obtain ⟨inCode, rfl⟩ := List.getElem?_eq_some_iff.mp found
    rw [List.length_range] at inCode
    rw [List.getElem_range]
    obtain ⟨held?, -, held⟩ := sound.code address inCode
    rw [held]
    exact ⟨inCode, rfl⟩
  · rintro ⟨inCode, held⟩
    exact ⟨address, List.getElem?_range inCode, by rw [held]; rfl⟩

/-- From the code on, the word that is read at an address is that of a data cell. -/
theorem dataAt_eq_iff (sound : state.SoundFor image) {address : Nat} {word : Word}
    (notCode : state.codeSize ≤ address) (inMemory : address < memorySize) :
    state.dataAt address = word ↔ state.cell? address = some (.data word) := by
  obtain ⟨held, isData, -⟩ := sound.data address notCode inMemory
  rw [State.dataAt, isData]
  simp

theorem shows_of_sound (sound : state.SoundFor image) :
    Shows state (codeCells state) (table state) where
  text := memory_eq_join state
  unbroken := unbroken_textLines _ _
  codeLength := by rw [codeCells, List.length_map, List.length_range]
  code _ _ := getElem?_codeCells_iff sound
  height := length_table
  narrow _ := narrow_of_mem_table
  place row column entry := by
    rw [getElem?_table_iff]
    refine and_congr_right fun _ => and_congr_right fun isAddress =>
      and_congr_right fun inMemory => dataAt_eq_iff sound ?_ inMemory
    rw [isAddress, Nat.add_assoc]
    exact Nat.le_add_right _ _
  once := flatten_table_perm state

/-- Equal dumps show equal cells. -/
theorem cells_eq_of_memory_eq (sound : state.SoundFor image)
    (otherSound : other.SoundFor otherImage) (sameSize : other.codeSize = state.codeSize)
    (same : memory other = memory state) (address : Nat) :
    other.cell? address = state.cell? address := by
  have shows := shows_of_sound sound
  have otherShows := shows_of_sound otherSound
  have sameLines : textLines (codeCells other) (table other) =
      textLines (codeCells state) (table state) :=
    Text.lines_eq_of_join_eq otherShows.unbroken shows.unbroken
      (otherShows.text.symm.trans (same.trans shows.text))
  obtain ⟨sameCode, sameTable⟩ := eq_of_textLines_eq
    (otherShows.codeLength.trans (sameSize.trans shows.codeLength.symm))
    (by simp only [table, sameSize, List.map_map, Function.comp_def, List.map_id']) sameLines
  by_cases inCode : address < state.codeSize
  · obtain ⟨word?, -, held⟩ := sound.code address inCode
    have listed := (shows.code address word?).mpr ⟨inCode, held⟩
    rw [← sameCode, otherShows.code] at listed
    rw [held, listed.2]
  · by_cases inMemory : address < memorySize
    · obtain ⟨word, held, -⟩ := sound.data address (Nat.le_of_not_lt inCode) inMemory
      have member : address ∈ (table state).flatten.map Prod.fst :=
        shows.once.mem_iff.mpr (List.mem_range'_1.mpr (by omega))
      obtain ⟨entry, inTable, rfl⟩ := List.mem_map.mp member
      obtain ⟨entries, isRow, inRow⟩ := List.mem_flatten.mp inTable
      obtain ⟨row, atRow⟩ := List.mem_iff_getElem?.mp isRow
      obtain ⟨column, atColumn⟩ := List.mem_iff_getElem?.mp inRow
      have placed := ((shows.place row column entry).mp ⟨entries, atRow, atColumn⟩).2.2.2
      rw [← sameTable] at atRow
      have otherPlaced :=
        ((otherShows.place row column entry).mp ⟨entries, atRow, atColumn⟩).2.2.2
      rw [placed, otherPlaced]
    · have outside : ∀ state : State, state.cell? address = none := fun state =>
        Vector.getElem?_eq_none (Nat.le_of_not_lt inMemory)
      rw [outside, outside]

end Sound

end Dump

/-! ## States of a machine -/

namespace Session

open Effects

/-- A state in which a machine can be found that was started on an image. -/
inductive Occurs (image : Image) (options : SessionOptions) : State → Prop
  /-- Between two steps. -/
  | between {session : Session} (reached : Reachable image options session) :
      Occurs image options session.state
  /-- Within a step, when an instruction is fetched and the debugger takes commands. -/
  | fetched {session : Session} (reached : Reachable image options session)
      (running : session.state.halted = false)
      (inCode : session.state.pc < session.state.codeSize) :
      Occurs image options session.state.advance
  /-- After a step that faulted. -/
  | faulted {session after : Session} {fault : Fault} (reached : Reachable image options session)
      (failed : step session = .error fault after) : Occurs image options after.state

variable {image : Image} {options : SessionOptions} {state : State}

theorem Occurs.soundFor (occurs : Occurs image options state) : state.SoundFor image := by
  cases occurs with
  | between reached => exact reached.soundFor
  | fetched reached running inCode => exact reached.soundFor.advance inCode running
  | faulted reached failed =>
      obtain ⟨part, failedIn⟩ := step_eq_error failed
      exact soundFor_of_failsIn reached.soundFor (running_of_error failed) failedIn

/-- The dump of every state of a machine shows each code cell in a line of its own, and then each
data cell at one place of a table. Two states of machines whose codes are as long have the same
dump only when all their cells are the same. -/
theorem memory_dump_tells_every_cell (occurs : Occurs image options state) :
    (∃ code table, Dump.Shows state code table) ∧
      ∀ otherImage otherOptions other, Occurs otherImage otherOptions other →
        other.codeSize = state.codeSize →
          (Dump.memory other = Dump.memory state ↔
            ∀ address, other.cell? address = state.cell? address) := by
  refine ⟨⟨_, _, Dump.shows_of_sound occurs.soundFor⟩, ?_⟩
  intro otherImage otherOptions other otherOccurs sameSize
  exact ⟨Dump.cells_eq_of_memory_eq occurs.soundFor otherOccurs.soundFor sameSize,
    Dump.memory_congr sameSize⟩

/-- A program that stores 5 at address 200, with a malformed line behind it. -/
def storing : Image :=
  ⟨[some 0x1105, some 0x31C8, none]⟩

def storingSession : Session :=
  start storing ⟨.disabled, false⟩ (.start [] .calm)

/-- The stored word stands in row 25 and column 4 of the table, and the dump is not the one that it
was before the run. -/
theorem dump_of_storing :
    (∃ code table, Dump.Shows (left (step (left (step storingSession)))).state code table ∧
      ∃ entries, table[25]? = some entries ∧ entries[4]? = some (200, 5)) ∧
    Dump.memory storingSession.state ≠
      Dump.memory (left (step (left (step storingSession)))).state := by
  have sets : outcome (step storingSession) = .ok .retired := by decide +kernel
  have stores : outcome (step (left (step storingSession))) = .ok .retired := by decide +kernel
  have reached : Reachable storing ⟨.disabled, false⟩ storingSession := .start _
  have occurs : Occurs storing ⟨.disabled, false⟩
      (left (step (left (step storingSession)))).state :=
    .between ((reached.step (eq_ok_of_outcome sets)).step (eq_ok_of_outcome stores))
  obtain ⟨⟨code, table, shows⟩, tells⟩ := memory_dump_tells_every_cell occurs
  have height : table.length = 43 := shows.height.trans (by decide +kernel)
  refine ⟨⟨code, table, shows, ?_⟩, fun same => ?_⟩
  · rw [shows.place, height]
    decide +kernel
  · have sameCells := (tells _ _ _ (.between reached) (by decide +kernel)).mp same
    exact absurd (sameCells 200) (by decide +kernel)

end Session

end MiniatureMachine
