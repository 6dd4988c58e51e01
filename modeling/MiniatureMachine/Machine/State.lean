import MiniatureMachine.Image
import MiniatureMachine.Isa.Instruction

/-!
Contract: registers and memory of the machine.

Owns:
- the memory cells, of which the first hold code and the others data;
- the state of the machine and its start from an image;
- reading and writing registers and data cells;
- the tests for code and data addresses;
- what reads back after each kind of write.

Register zero always reads as zero. What is written to it is stored, and
`clearRegisterZero` removes it after each instruction.
-/

namespace MiniatureMachine

def registerCount : Nat := 16

inductive Cell where
  /-- A word of the program, or none where the image line was malformed. -/
  | code (word? : Option Word)
  /-- A word the program may load and store. -/
  | data (word : Word)
deriving DecidableEq, Repr

structure State where
  registers : Vector Word registerCount
  memory : Vector Cell memorySize
  /-- The address of the next instruction. -/
  pc : Nat
  /-- The number of code cells. -/
  codeSize : Nat
  halted : Bool
deriving DecidableEq, Repr

namespace State

/-- The state in which a program starts: its words fill the first cells, and all
else is zero. Words beyond the memory are left out. -/
def ofImage (image : Image) : State :=
  { registers := Vector.replicate registerCount 0
    memory := Vector.ofFn fun address =>
      match image.words[address.val]? with
      | some word? => .code word?
      | none => .data 0
    pc := 0
    codeSize := min image.codeSize memorySize
    halted := false }

/-! ## Registers -/

/-- The word a register reads as. A register that does not exist reads as
zero. -/
def register (state : State) (index : Nat) : Word :=
  if index = 0 then 0 else (state.registers[index]?).getD 0

/-- Stores a word in a register. For a register that does not exist nothing
happens. -/
def setRegister (state : State) (index : Nat) (word : Word) : State :=
  { state with registers := state.registers.setIfInBounds index word }

def visibleRegisters (state : State) : List Word :=
  (List.range registerCount).map state.register

def clearRegisterZero (state : State) : State :=
  state.setRegister 0 0

/-! ## Memory -/

/-- The cell at an address, if the memory has the address. -/
def cell? (state : State) (address : Nat) : Option Cell :=
  state.memory[address]?

/-- The word at an address. A malformed cell and an address outside the memory
read as zero. -/
def dataAt (state : State) (address : Nat) : Word :=
  match state.cell? address with
  | some (.data word) => word
  | some (.code (some word)) => word
  | some (.code none) | none => 0

/-- Makes the cell at an address a data cell with the given word. -/
def setData (state : State) (address : Nat) (word : Word) : State :=
  { state with memory := state.memory.setIfInBounds address (.data word) }

def isCodeAddress (state : State) (target : Int) : Bool :=
  decide (0 ≤ target) && decide (target < state.codeSize)

def isDataAddress (state : State) (target : Int) : Bool :=
  decide ((state.codeSize : Int) ≤ target) && decide (target < memorySize)

def untranslatable : String :=
  "***UNTRANSLATABLE INSTRUCTION!***"

def disassemblyAt (state : State) (address : Nat) : String :=
  match state.cell? address with
  | some (.code (some word)) => disassemble word
  | _ => untranslatable

/-! ## Register laws -/

@[simp] theorem register_zero (state : State) : state.register 0 = 0 := rfl

/-- A register that exists reads as what was last stored in it. -/
theorem register_setRegister_same {state : State} {index : Nat} (word : Word)
    (inRange : index < registerCount) (visible : index ≠ 0) :
    (state.setRegister index word).register index = word := by
  simp [register, setRegister, visible, inRange]

/-- Storing in one register leaves the others as they are. -/
theorem register_setRegister_other {state : State} {index other : Nat} (word : Word)
    (different : other ≠ index) :
    (state.setRegister index word).register other = state.register other := by
  simp only [register, setRegister]
  rw [Vector.getElem?_setIfInBounds_ne (Ne.symm different)]

/-! ## Memory laws -/

/-- The cells at the start are the words of the image, and zeros behind them. -/
theorem cell?_ofImage (image : Image) {address : Nat} (inMemory : address < memorySize) :
    (ofImage image).cell? address =
      some (match image.words[address]? with
        | some word? => .code word?
        | none => .data 0) := by
  simp [cell?, ofImage, inMemory]

/-- A cell of the memory holds what was last stored in it. -/
theorem cell?_setData_same (state : State) (word : Word) {address : Nat}
    (inMemory : address < memorySize) :
    (state.setData address word).cell? address = some (.data word) := by
  simp [cell?, setData, inMemory]

/-- Storing in one cell leaves the others as they are. -/
theorem cell?_setData_other (state : State) (word : Word) {address other : Nat}
    (different : other ≠ address) :
    (state.setData address word).cell? other = state.cell? other := by
  simp only [cell?, setData]
  rw [Vector.getElem?_setIfInBounds_ne (Ne.symm different)]

end State

end MiniatureMachine
