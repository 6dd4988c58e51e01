import MiniatureMachine.Machine.Arithmetic
import MiniatureMachine.Machine.Console
import MiniatureMachine.Machine.State

/-!
Contract: the effect of one instruction on the machine and its console.

Owns:
- checked writes, jumps, loads and stores;
- the execution of each operation.

Does not own: fetching, the program counter of the next instruction in line,
the debugger, or the context of a fault.

The program counter already points behind the instruction when it executes. A
result that no word holds is a fault and is stored nowhere. A fault keeps what
was done before it, which is only ever the link register of a call.
-/

namespace MiniatureMachine

/-- The machine's state together with the console it works on. -/
structure Bench where
  state : State
  console : Console
deriving DecidableEq, Repr

abbrev Effect := EStateM FaultCause Bench

namespace Bench

/-- Lets a dialogue work on the console. -/
def converse {α : Type} (dialogue : Dialogue α) : Effect α := fun bench =>
  match dialogue bench.console with
  | .ok value console => .ok value { bench with console := console }
  | .error cause console => .error cause { bench with console := console }

/-- Replaces the state, unless the update is refused. -/
def update (change : State → Except FaultCause State) : Effect Unit := fun bench =>
  match change bench.state with
  | .ok state => .ok () { bench with state := state }
  | .error cause => .error cause bench

end Bench

namespace State

/-! ## Checked updates -/

/-- Stores a number in a register if a word holds it. -/
def assign (index : Nat) (number : Int) (state : State) : Except FaultCause State :=
  match Word.ofInt? number with
  | some word => .ok (state.setRegister index word)
  | none => .error (.integerOverflow number)

def jump (fetchedAt : Nat) (target : Int) (state : State) : Except FaultCause State :=
  if state.isCodeAddress target then
    .ok { state with pc := target.toNat }
  else
    .error (.invalidJumpTarget fetchedAt target)

/-- Copies a data cell to a register. -/
def load (fetchedAt index : Nat) (address : Int) (state : State) :
    Except FaultCause State :=
  if state.isDataAddress address then
    .ok (state.setRegister index (state.dataAt address.toNat))
  else
    .error (.invalidMemoryTarget fetchedAt .load address)

/-- Copies a register to a data cell. -/
def store (fetchedAt index : Nat) (address : Int) (state : State) :
    Except FaultCause State :=
  if state.isDataAddress address then
    .ok (state.setData address.toNat (state.register index))
  else
    .error (.invalidMemoryTarget fetchedAt .store address)

def number (state : State) (index : Nat) : Int :=
  (state.register index).toInt

def compute (fetchedAt : Nat) (operation : Operation) (index left right : Nat)
    (state : State) : Except FaultCause State :=
  match operation.result? (state.number left) (state.number right) with
  | some result => state.assign index result
  | none => .error (.divisionByZero fetchedAt)

def branch (fetchedAt : Nat) (operation : Operation) (index : Nat) (target : Int)
    (state : State) : Except FaultCause State :=
  if operation.isTaken (state.number index) then
    state.jump fetchedAt target
  else
    .ok state

end State

namespace Instruction

/-- The register number at a position, or zero if there is none. -/
def register (instruction : Instruction) (position : Nat) : Nat :=
  (instruction.register? position).getD 0

/-- The number at a position, or zero if there is none. -/
def number (instruction : Instruction) (position : Nat) : Int :=
  (instruction.number? position).getD 0

/-! ## Execution -/

def readInto (index : Nat) : Effect Unit := do
  let word ← Bench.converse NumberInput.read
  Bench.update fun state => .ok (state.setRegister index word)

def writeFrom (index : Nat) : Effect Unit := do
  let bench ← get
  Bench.converse (Console.writeLine (toString (bench.state.number index)))

/-- Leaves the address of the next instruction in a register, then jumps. The
register keeps the address when the jump is refused. -/
def callThrough (fetchedAt index : Nat) (target : Int) : Effect Unit := do
  Bench.update fun state => state.assign index state.pc
  Bench.update (State.jump fetchedAt target)

def execute (instruction : Instruction) (fetchedAt : Nat) : Effect Unit :=
  let register := instruction.register
  let number := instruction.number
  let operation := instruction.operation
  match operation with
  | .halt => Bench.update fun state => .ok { state with halted := true }
  | .nop => pure ()
  | .read => readInto (register 0)
  | .write => writeFrom (register 0)
  | .jumpi => Bench.update fun state => state.jump fetchedAt (state.number (register 0))
  | .loadn => Bench.update (State.assign (register 0) (number 1))
  | .addn =>
      Bench.update fun state =>
        state.assign (register 0) (state.number (register 0) + number 1)
  | .load => Bench.update (State.load fetchedAt (register 0) (number 1))
  | .store => Bench.update (State.store fetchedAt (register 0) (number 1))
  | .loadi =>
      Bench.update fun state =>
        state.load fetchedAt (register 0) (state.number (register 1))
  | .storei =>
      Bench.update fun state =>
        state.store fetchedAt (register 0) (state.number (register 1))
  | .mov => Bench.update fun state => state.assign (register 0) (state.number (register 1))
  | .neg =>
      Bench.update fun state => state.assign (register 0) (-state.number (register 1))
  | .add | .sub | .mul | .div | .mod =>
      Bench.update
        (State.compute fetchedAt operation (register 0) (register 1) (register 2))
  | .jump => Bench.update (State.jump fetchedAt (number 0))
  | .call => callThrough fetchedAt (register 0) (number 1)
  | .jeqz | .jnez | .jgtz | .jltz =>
      Bench.update (State.branch fetchedAt operation (register 0) (number 1))
  | .data => throw (.invalidOpcode fetchedAt)

end Instruction

end MiniatureMachine
