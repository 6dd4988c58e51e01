import Mathlib.Data.List.Nodup
import Mathlib.Data.List.Range
import Mathlib.Data.List.Perm.Basic
import MiniatureMachine.Machine.Dump

/-!
Contract: the data part of a memory dump is a table that holds every data address once.

Owns:
- the addresses of a row, and their places in it;
- the height and the width of the table;
- the table of addresses and words, and what stands at a place of it.

An address is told by its row and its column as a number is by its remainder and its quotient:
the height of the table is the divisor. The last column may be shorter than the others, so a row
ends at the first address that the memory does not have.
-/

namespace MiniatureMachine

namespace Dump

/-! ## Rows of addresses -/

/-- What is taken stands where it stood, behind nothing that stops the taking. -/
theorem getElem?_takeWhile_eq_some_iff {α : Type} {keeps : α → Bool} {list : List α}
    {index : Nat} {value : α} : (list.takeWhile keeps)[index]? = some value ↔
      list[index]? = some value ∧
        ∀ place ≤ index, ∀ other, list[place]? = some other → keeps other = true := by
  induction list generalizing index with
  | nil => simp
  | cons head tail inductionHypothesis =>
      by_cases kept : keeps head = true
      · rw [List.takeWhile_cons_of_pos kept]
        cases index with
        | zero =>
            refine ⟨fun found => ⟨found, ?_⟩, fun found => found.1⟩
            rintro place le other isHead
            obtain rfl := Nat.le_zero.mp le
            cases isHead
            exact kept
        | succ index =>
            rw [List.getElem?_cons_succ, List.getElem?_cons_succ, inductionHypothesis]
            refine and_congr_right fun _ => ⟨fun all place le other found => ?_,
              fun all place le other found => all (place + 1) (Nat.succ_le_succ le) other found⟩
            cases place with
            | zero =>
                cases found
                exact kept
            | succ place => exact all place (Nat.le_of_succ_le_succ le) other found
      · rw [List.takeWhile_cons_of_neg kept]
        constructor
        · intro found
          cases found
        · intro found
          exact absurd (found.2 0 (Nat.zero_le _) head rfl) kept

variable {codeSize rows row column address : Nat}

theorem getElem?_rowAddresses_iff :
    (rowAddresses codeSize rows row)[column]? = some address ↔
      column < columns ∧ address = codeSize + row + column * rows ∧ address < memorySize := by
  have listed : ∀ place other,
      ((List.range columns).map fun column => codeSize + row + column * rows)[place]? =
        some other ↔ place < columns ∧ other = codeSize + row + place * rows := by
    intro place other
    rw [List.getElem?_map, Option.map_eq_some_iff]
    constructor
    · rintro ⟨_, found, rfl⟩
      obtain ⟨inRange, rfl⟩ := List.getElem?_eq_some_iff.mp found
      rw [List.length_range] at inRange
      exact ⟨inRange, by rw [List.getElem_range]⟩
    · rintro ⟨inRange, rfl⟩
      exact ⟨place, List.getElem?_range inRange, rfl⟩
  rw [rowAddresses, getElem?_takeWhile_eq_some_iff, listed, and_assoc]
  refine and_congr_right fun _ => and_congr_right fun isAddress => ?_
  constructor
  · intro all
    simpa using all column (Nat.le_refl _) address ((listed _ _).mpr ⟨‹_›, isAddress⟩)
  · intro inMemory place le other found
    -- Along a row the addresses grow, so all before one of the memory are of the memory.
    obtain ⟨-, rfl⟩ := (listed _ _).mp found
    have grows := Nat.mul_le_mul_right rows le
    simp only [decide_eq_true_eq]
    omega

private theorem length_rowAddresses_le : (rowAddresses codeSize rows row).length ≤ columns := by
  refine Nat.le_trans (List.takeWhile_sublist _).length_le ?_
  rw [List.length_map, List.length_range]

theorem mem_rowAddresses_iff :
    address ∈ rowAddresses codeSize rows row ↔
      ∃ column < columns, address = codeSize + row + column * rows ∧ address < memorySize := by
  rw [List.mem_iff_getElem?]
  simp only [getElem?_rowAddresses_iff]

/-! ## The height of the table -/

private theorem le_columns_mul_rowCount (cells : Nat) : cells ≤ columns * rowCount cells := by
  simp only [rowCount, columns]
  omega

private theorem rowCount_le (cells : Nat) : rowCount cells ≤ cells := by
  simp only [rowCount, columns]
  omega

/-! ## All rows -/

/-- The row and the column of a place are the remainder and the quotient of its number. -/
theorem row_and_column (column : Nat) (inTable : row < rows) :
    (row + column * rows) % rows = row ∧ (row + column * rows) / rows = column := by
  have positive : 0 < rows := Nat.lt_of_le_of_lt (Nat.zero_le _) inTable
  constructor
  · rw [Nat.add_mul_mod_self_right, Nat.mod_eq_of_lt inTable]
  · rw [Nat.add_mul_div_right _ _ positive, Nat.div_eq_of_lt inTable, Nat.zero_add]

/-- Within a table, two places with the same address are in the same row and column. -/
theorem place_unique {otherRow otherColumn : Nat} (inTable : row < rows)
    (otherInTable : otherRow < rows)
    (same : codeSize + row + column * rows = codeSize + otherRow + otherColumn * rows) :
    row = otherRow ∧ column = otherColumn := by
  rw [Nat.add_assoc, Nat.add_assoc, Nat.add_left_cancel_iff] at same
  have place := row_and_column column inTable
  rw [same, (row_and_column _ otherInTable).1, (row_and_column _ otherInTable).2] at place
  exact ⟨place.1.symm, place.2.symm⟩

private theorem nodup_rowAddresses (inTable : row < rows) :
    (rowAddresses codeSize rows row).Nodup := by
  refine List.Nodup.sublist (List.takeWhile_sublist _) (List.Nodup.map ?_ List.nodup_range)
  intro column otherColumn same
  exact (place_unique inTable inTable same).2

/-- Row by row, a table lists every address from the code on once. -/
theorem flatMap_rowAddresses_perm (codeSize : Nat) :
    ((List.range (rowCount (memorySize - codeSize))).flatMap
        (rowAddresses codeSize (rowCount (memorySize - codeSize)))).Perm
      (List.range' codeSize (memorySize - codeSize)) := by
  have enough := le_columns_mul_rowCount (memorySize - codeSize)
  generalize rowCount (memorySize - codeSize) = rows at enough
  have once : ((List.range rows).flatMap (rowAddresses codeSize rows)).Nodup := by
    rw [List.nodup_flatMap]
    refine ⟨fun row inTable => nodup_rowAddresses (List.mem_range.mp inTable), ?_⟩
    refine List.nodup_range.pairwise_of_forall_ne fun row inTable other otherInTable different => ?_
    intro address inRow inOther
    obtain ⟨column, -, isAddress, -⟩ := mem_rowAddresses_iff.mp inRow
    obtain ⟨otherColumn, -, isOther, -⟩ := mem_rowAddresses_iff.mp inOther
    exact different (place_unique (List.mem_range.mp inTable) (List.mem_range.mp otherInTable)
      (isAddress.symm.trans isOther)).1
  refine (List.perm_ext_iff_of_nodup once List.nodup_range').mpr fun address => ?_
  rw [List.mem_flatMap, List.mem_range'_1]
  constructor
  · rintro ⟨row, -, inRow⟩
    obtain ⟨column, -, rfl, inMemory⟩ := mem_rowAddresses_iff.mp inRow
    omega
  · rintro ⟨notCode, inMemory⟩
    have positive : 0 < rows := by
      rw [Nat.pos_iff_ne_zero]
      rintro rfl
      omega
    have split := Nat.mod_add_div (address - codeSize) rows
    rw [Nat.mul_comm] at split
    refine ⟨(address - codeSize) % rows, List.mem_range.mpr (Nat.mod_lt _ positive),
      mem_rowAddresses_iff.mpr ⟨(address - codeSize) / rows, ?_, by omega, by omega⟩⟩
    rw [Nat.div_lt_iff_lt_mul positive]
    omega

/-! ## The table -/

/-- The addresses and words of the data part of a dump, row by row. -/
def table (state : State) : List (List (Nat × Word)) :=
  (List.range (rowCount (memorySize - state.codeSize))).map fun row =>
    (rowAddresses state.codeSize (rowCount (memorySize - state.codeSize)) row).map fun address =>
      (address, state.dataAt address)

variable {state : State}

theorem length_table : (table state).length = rowCount (memorySize - state.codeSize) := by
  rw [table, List.length_map, List.length_range]

theorem getElem?_table_iff {entry : Nat × Word} :
    (∃ entries, (table state)[row]? = some entries ∧ entries[column]? = some entry) ↔
      row < (table state).length ∧
        entry.1 = state.codeSize + row + column * (table state).length ∧
        entry.1 < memorySize ∧ state.dataAt entry.1 = entry.2 := by
  have enough := le_columns_mul_rowCount (memorySize - state.codeSize)
  rw [length_table, table]
  generalize rowCount (memorySize - state.codeSize) = rows at enough
  constructor
  · rintro ⟨entries, inTable, inRow⟩
    obtain ⟨_, found, rfl⟩ := Option.map_eq_some_iff.mp (List.getElem?_map ▸ inTable)
    obtain ⟨bound, rfl⟩ := List.getElem?_eq_some_iff.mp found
    obtain ⟨address, placed, rfl⟩ := Option.map_eq_some_iff.mp (List.getElem?_map ▸ inRow)
    rw [List.getElem_range, getElem?_rowAddresses_iff] at placed
    rw [List.length_range] at bound
    exact ⟨bound, placed.2.1, placed.2.2, rfl⟩
  · rintro ⟨bound, isAddress, inMemory, holds⟩
    have inColumns : column < columns := by
      -- Six columns of this height reach to the end of the memory.
      by_contra outside
      have reaches := Nat.mul_le_mul_right rows (Nat.le_of_not_lt outside)
      omega
    refine ⟨(rowAddresses state.codeSize rows row).map fun address =>
      (address, state.dataAt address), ?_, ?_⟩
    · rw [List.getElem?_map, List.getElem?_range bound, Option.map_some]
    · rw [List.getElem?_map, getElem?_rowAddresses_iff.mpr ⟨inColumns, isAddress, inMemory⟩,
        Option.map_some, holds]

theorem narrow_of_mem_table {entries : List (Nat × Word)} (member : entries ∈ table state) :
    entries ≠ [] ∧ entries.length ≤ columns := by
  obtain ⟨row, inTable, rfl⟩ := List.mem_map.mp member
  have few := rowCount_le (memorySize - state.codeSize)
  have bound := List.mem_range.mp inTable
  constructor
  · have first : (rowAddresses state.codeSize (rowCount (memorySize - state.codeSize)) row)[0]? =
        some (state.codeSize + row) := by
      rw [getElem?_rowAddresses_iff]
      exact ⟨by decide, by rw [Nat.zero_mul, Nat.add_zero], by omega⟩
    intro empty
    rw [List.map_eq_nil_iff.mp empty] at first
    cases first
  · rw [List.length_map]
    exact length_rowAddresses_le

/-- The table lists every data address once. -/
theorem flatten_table_perm (state : State) : ((table state).flatten.map Prod.fst).Perm
    (List.range' state.codeSize (memorySize - state.codeSize)) := by
  have addresses : (table state).flatten.map Prod.fst =
      (List.range (rowCount (memorySize - state.codeSize))).flatMap
        (rowAddresses state.codeSize (rowCount (memorySize - state.codeSize))) := by
    simp only [table, List.map_flatten, List.map_map, Function.comp_def, List.map_id',
      List.flatMap_def]
  rw [addresses]
  exact flatMap_rowAddresses_perm state.codeSize

end Dump

end MiniatureMachine
