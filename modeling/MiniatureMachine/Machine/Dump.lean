import MiniatureMachine.Machine.State
import MiniatureMachine.Text.Blank
import MiniatureMachine.Text.Padding

/-!
Contract: the printed contents of registers and memory.

Owns:
- the register listing;
- the memory dump: one line for each code cell, then the data cells in columns.

The data cells run down the columns. With six columns and the fewest rows that
hold them all, the cell in a row and a column has the address
`codeSize + row + column * rows`.
-/

namespace MiniatureMachine.Dump

def columns : Nat := 6

def registerLine (index : Nat) (word : Word) : String :=
  Text.padEnd 2 (toString index) ++ " : " ++ toString word.toInt ++ "\n"

def registers (state : State) : String :=
  "Registers:\n" ++
    String.join (state.visibleRegisters.zipIdx.map fun entry =>
      registerLine entry.2 entry.1)

def codeText (cell? : Option Cell) : String :=
  match cell? with
  | some (.code (some word)) => word.layout
  | _ => "<malformed>"

def codeLine (state : State) (address : Nat) : String :=
  Text.padEnd 3 (toString address) ++ ":" ++
    Text.padEnd 23 (codeText (state.cell? address)) ++ "\n"

def rowCount (cells : Nat) : Nat :=
  (cells + (columns - 1)) / columns

/-- The addresses of a row of the data part, from left to right. -/
def rowAddresses (codeSize rows row : Nat) : List Nat :=
  ((List.range columns).map fun column => codeSize + row + column * rows).takeWhile
    (· < memorySize)

def dataEntry (state : State) (address : Nat) : String :=
  Text.padEnd 3 (toString address) ++ ": " ++
    Text.padEnd 7 (toString (state.dataAt address).toInt)

/-- A row of the data part, without blanks at its end. -/
def dataLine (state : State) (rows row : Nat) : String :=
  let entries := (rowAddresses state.codeSize rows row).map (dataEntry state)
  String.ofList (Text.trimEnd (" ".intercalate entries).toList) ++ "\n"

def memory (state : State) : String :=
  let rows := rowCount (memorySize - state.codeSize)
  "Memory Contents:\n" ++
    String.join ((List.range state.codeSize).map (codeLine state)) ++
    String.join ((List.range rows).map (dataLine state rows))

end MiniatureMachine.Dump
