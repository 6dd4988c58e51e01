import MiniatureMachine.Proofs.Machine.Execution

/-!
Contract: what an instruction writes, and what its effect depends on.

Owns:
- the writings of an instruction: the parts of the state that it replaces, with their values;
- the writings that an instruction may do, and what it may do to the console;
- the effect on two states that agree where the instruction looks.

An instruction looks at the program counter, at the size of the code, at the registers that it
names and at the cell that it loads. In two states that agree there it does one writing, so its
footprint and what it depends on come from the same case analysis, with a state beside itself.
-/

namespace MiniatureMachine

open Effects

/-! ## Writings -/

inductive Writing where
  | nothing
  | register (index : Nat) (word : Word)
  | cell (address : Nat) (word : Word)
  | pc (address : Nat)
  /-- A link in a register and the program counter. -/
  | call (index : Nat) (link : Word) (address : Nat)
  | halted
deriving DecidableEq, Repr

def Writing.apply (writing : Writing) (state : State) : State :=
  match writing with
  | nothing => state
  | register index word => state.setRegister index word
  | cell address word => state.setData address word
  | pc address => { state with pc := address }
  | call index link address => { state.setRegister index link with pc := address }
  | halted => { state with halted := true }

namespace Operation

def registerWriters : List Operation :=
  [.read, .loadn, .addn, .load, .loadi, .mov, .add, .neg, .sub, .mul, .div, .mod, .call]

def cellWriters : List Operation :=
  [.store, .storei]

def conversing : List Operation :=
  [.read, .write]

def unconditionalJumps : List Operation :=
  [.jumpi, .jump, .call]

def conditionalJumps : List Operation :=
  [.jeqz, .jnez, .jgtz, .jltz]

private theorem conditional_of_isTaken {operation : Operation} {number : Int}
    (taken : operation.isTaken number = true) : operation ∈ conditionalJumps := by
  cases operation
  case jeqz | jnez | jgtz | jltz => decide
  all_goals cases taken

end Operation

namespace Instruction

/-- The address that a jump, a call or a branch names in its operand. -/
def target? (instruction : Instruction) : Option Int :=
  match instruction.operation with
  | .jump => some (instruction.number 0)
  | .call | .jeqz | .jnez | .jgtz | .jltz => some (instruction.number 1)
  | _ => none

/-- The address that a jump leads to, also when a register holds it. -/
def destination? (instruction : Instruction) (state : State) : Option Int :=
  match instruction.operation with
  | .jumpi => some (state.number (instruction.register 0))
  | _ => instruction.target?

theorem destination?_of_direct {instruction : Instruction} {state : State}
    (direct : instruction.operation ≠ .jumpi) :
    instruction.destination? state = instruction.target? := by
  unfold destination?
  split
  · contradiction
  · rfl

/-- A jump, a call, or a conditional jump whose condition holds. -/
def Jumps (instruction : Instruction) (state : State) : Prop :=
  instruction.operation ∈ Operation.unconditionalJumps ∨
    instruction.operation.isTaken (state.number (instruction.register 0)) = true

theorem Jumps.operation_mem {instruction : Instruction} {state : State}
    (jumps : instruction.Jumps state) :
    instruction.operation ∈ Operation.unconditionalJumps ++ Operation.conditionalJumps :=
  List.mem_append.mpr (jumps.imp_right Operation.conditional_of_isTaken)

/-- The writings that an instruction may do when it succeeds. -/
inductive Writes (instruction : Instruction) (state : State) : Writing → Prop
  | nothing (stays : ¬instruction.Jumps state)
      (storesNot : instruction.operation ∉ Operation.cellWriters) :
      Writes instruction state .nothing
  | register {word : Word} (isWriter : instruction.operation ∈ Operation.registerWriters)
      (isNoCall : instruction.operation ≠ .call) :
      Writes instruction state (.register (instruction.register 0) word)
  | cell {address : Nat} (isWriter : instruction.operation ∈ Operation.cellWriters)
      (accesses : instruction.access? state = some (.store, (address : Int)))
      (isData : state.codeSize ≤ address ∧ address < memorySize) :
      Writes instruction state (.cell address (state.register (instruction.register 0)))
  | pc {address : Nat} (jumps : instruction.Jumps state) (isNoCall : instruction.operation ≠ .call)
      (leads : instruction.destination? state = some (address : Int))
      (inCode : address < state.codeSize) : Writes instruction state (.pc address)
  | call {link : Word} {address : Nat} (isCall : instruction.operation = .call)
      (links : link.toInt = state.pc)
      (leads : instruction.destination? state = some (address : Int))
      (inCode : address < state.codeSize) :
      Writes instruction state (.call (instruction.register 0) link address)
  | halted (isHalt : instruction.operation = .halt) : Writes instruction state .halted

/-- What an instruction may do to the console when it succeeds. -/
structure Converses (instruction : Instruction) (before after : Console) : Prop where
  silent : instruction.operation ∉ Operation.conversing → after = before
  input : instruction.operation ≠ .read →
    after.script = before.script ∧ after.reads = before.reads

/-! ## Agreement -/

/-- Two states that agree where an instruction looks. -/
structure Agrees (instruction : Instruction) (first second : State) : Prop where
  pc : first.pc = second.pc
  codeSize : first.codeSize = second.codeSize
  registers : ∀ number : BitVec 4, .register number ∈ instruction.operands →
    first.register number.toNat = second.register number.toNat
  cell : ∀ address : Nat, instruction.access? first = some (.load, (address : Int)) →
    first.codeSize ≤ address → address < memorySize →
    first.dataAt address = second.dataAt address

/-- Two executions with one effect: they do the same writing and leave the same console, and
both of them succeed or both fail for the same reason. -/
inductive SameEffect (instruction : Instruction) (console : Console) (first second : State) :
    EStateM.Result FaultCause Bench Unit → EStateM.Result FaultCause Bench Unit → Prop
  | succeeds {writing : Writing} {after : Console} (writes : instruction.Writes first writing)
      (converses : instruction.Converses console after) :
      SameEffect instruction console first second (.ok () ⟨writing.apply first, after⟩)
        (.ok () ⟨writing.apply second, after⟩)
  | fails (cause : FaultCause) (writing : Writing) (after : Console) :
      SameEffect instruction console first second (.error cause ⟨writing.apply first, after⟩)
        (.error cause ⟨writing.apply second, after⟩)

/-- Two updates of the state that do the same writing, or are refused for the same reason. -/
inductive SameUpdate (instruction : Instruction) (first second : State) :
    Except FaultCause State → Except FaultCause State → Prop
  | succeeds {writing : Writing} (writes : instruction.Writes first writing) :
      SameUpdate instruction first second (.ok (writing.apply first)) (.ok (writing.apply second))
  | fails (cause : FaultCause) : SameUpdate instruction first second (.error cause) (.error cause)

variable {instruction : Instruction} {console : Console} {first second : State} {fetchedAt : Nat}

theorem Agrees.refl (instruction : Instruction) (state : State) : instruction.Agrees state state :=
  ⟨rfl, rfl, fun _ _ => rfl, fun _ _ _ _ => rfl⟩

theorem Agrees.register_eq (agrees : instruction.Agrees first second) (position : Nat) :
    first.register (instruction.register position) =
      second.register (instruction.register position) := by
  unfold register register?
  split
  · rename_i number found
    exact agrees.registers number (List.mem_of_getElem? found)
  · rfl

theorem Agrees.number_eq (agrees : instruction.Agrees first second) (position : Nat) :
    first.number (instruction.register position) =
      second.number (instruction.register position) :=
  congrArg BitVec.toInt (agrees.register_eq position)

private theorem Agrees.isCodeAddress_eq (agrees : instruction.Agrees first second) (target : Int) :
    second.isCodeAddress target = first.isCodeAddress target := by
  rw [State.isCodeAddress, State.isCodeAddress, agrees.codeSize]

private theorem Agrees.isDataAddress_eq (agrees : instruction.Agrees first second) (target : Int) :
    second.isDataAddress target = first.isDataAddress target := by
  rw [State.isDataAddress, State.isDataAddress, agrees.codeSize]

/-! ### Updates of states that agree -/

theorem SameUpdate.assign (isWriter : instruction.operation ∈ Operation.registerWriters)
    (isNoCall : instruction.operation ≠ .call) (number : Int) :
    SameUpdate instruction first second (first.assign (instruction.register 0) number)
      (second.assign (instruction.register 0) number) := by
  unfold State.assign
  cases Word.ofInt? number with
  | none => exact .fails _
  | some word => exact .succeeds (.register isWriter isNoCall)

theorem Agrees.jump (agrees : instruction.Agrees first second) (jumps : instruction.Jumps first)
    (isNoCall : instruction.operation ≠ .call) {target : Int}
    (leads : instruction.destination? first = some target) :
    SameUpdate instruction first second (first.jump fetchedAt target)
      (second.jump fetchedAt target) := by
  unfold State.jump
  rw [agrees.isCodeAddress_eq]
  split
  · rename_i isCode
    obtain ⟨address, inCode, rfl⟩ := State.isCodeAddress_iff.mp isCode
    exact .succeeds (.pc jumps isNoCall leads inCode)
  · exact .fails _

theorem Agrees.load (agrees : instruction.Agrees first second)
    (isWriter : instruction.operation ∈ Operation.registerWriters)
    (isNoCall : instruction.operation ≠ .call) {target : Int}
    (accesses : instruction.access? first = some (.load, target)) :
    SameUpdate instruction first second (first.load fetchedAt (instruction.register 0) target)
      (second.load fetchedAt (instruction.register 0) target) := by
  unfold State.load
  rw [agrees.isDataAddress_eq]
  split
  · rename_i isData
    obtain ⟨address, notCode, inMemory, rfl⟩ := State.isDataAddress_iff.mp isData
    rw [Int.toNat_natCast, ← agrees.cell address accesses notCode inMemory]
    exact .succeeds (.register isWriter isNoCall)
  · exact .fails _

theorem Agrees.store (agrees : instruction.Agrees first second)
    (isWriter : instruction.operation ∈ Operation.cellWriters) {target : Int}
    (accesses : instruction.access? first = some (.store, target)) :
    SameUpdate instruction first second (first.store fetchedAt (instruction.register 0) target)
      (second.store fetchedAt (instruction.register 0) target) := by
  unfold State.store
  rw [agrees.isDataAddress_eq, ← agrees.register_eq]
  split
  · rename_i isData
    obtain ⟨address, notCode, inMemory, rfl⟩ := State.isDataAddress_iff.mp isData
    exact .succeeds (.cell isWriter accesses ⟨notCode, inMemory⟩)
  · exact .fails _

theorem Agrees.compute (agrees : instruction.Agrees first second)
    (isWriter : instruction.operation ∈ Operation.registerWriters)
    (isNoCall : instruction.operation ≠ .call) :
    SameUpdate instruction first second
      (first.compute fetchedAt instruction.operation (instruction.register 0)
        (instruction.register 1) (instruction.register 2))
      (second.compute fetchedAt instruction.operation (instruction.register 0)
        (instruction.register 1) (instruction.register 2)) := by
  unfold State.compute
  rw [agrees.number_eq, agrees.number_eq]
  split
  · exact .assign isWriter isNoCall _
  · exact .fails _

theorem Agrees.branch (agrees : instruction.Agrees first second) {target : Int}
    (leads : instruction.destination? first = some target)
    (isConditional : instruction.operation ∈ Operation.conditionalJumps) :
    SameUpdate instruction first second
      (first.branch fetchedAt instruction.operation (instruction.register 0) target)
      (second.branch fetchedAt instruction.operation (instruction.register 0) target) := by
  have others : ∀ operation ∈ Operation.conditionalJumps, operation ≠ .call ∧
      operation ∉ Operation.unconditionalJumps ∧ operation ∉ Operation.cellWriters := by
    decide
  obtain ⟨isNoCall, conditional, storesNot⟩ := others _ isConditional
  unfold State.branch
  rw [← agrees.number_eq]
  split
  · rename_i taken
    exact agrees.jump (.inr taken) isNoCall leads
  · rename_i notTaken
    exact .succeeds (.nothing (not_or_intro conditional notTaken) storesNot)

private theorem SameUpdate.sameEffect {change : State → Except FaultCause State}
    (same : SameUpdate instruction first second (change first) (change second)) :
    SameEffect instruction console first second (Bench.update change ⟨first, console⟩)
      (Bench.update change ⟨second, console⟩) := by
  unfold Bench.update
  dsimp only
  generalize change first = result at same ⊢
  generalize change second = result' at same ⊢
  cases same with
  | succeeds writes => exact .succeeds writes ⟨fun _ => rfl, fun _ => ⟨rfl, rfl⟩⟩
  | fails cause => exact .fails cause .nothing console

theorem SameEffect.readInto (isRead : instruction.operation = .read) :
    SameEffect instruction console first second
      (readInto (instruction.register 0) ⟨first, console⟩)
      (readInto (instruction.register 0) ⟨second, console⟩) := by
  have isWriter : instruction.operation ∈ Operation.registerWriters := by
    rw [isRead]
    decide
  have isNoCall : instruction.operation ≠ .call := by
    rw [isRead]
    decide
  simp only [Instruction.readInto, bind, EStateM.bind, Bench.converse]
  cases NumberInput.read console with
  | ok word after =>
      refine .succeeds (.register isWriter isNoCall) ⟨fun silent => ?_, fun notRead => ?_⟩
      · rw [isRead] at silent
        exact absurd (by decide) silent
      · exact absurd isRead notRead
  | error cause after => exact .fails cause .nothing after

theorem Agrees.writeFrom (agrees : instruction.Agrees first second)
    (isWrite : instruction.operation = .write) :
    SameEffect instruction console first second
      (writeFrom (instruction.register 0) ⟨first, console⟩)
      (writeFrom (instruction.register 0) ⟨second, console⟩) := by
  unfold Instruction.writeFrom
  rw [get_bind, get_bind]
  dsimp only
  rw [← agrees.number_eq]
  unfold Bench.converse
  dsimp only
  cases written : Console.writeLine (toString (first.number (instruction.register 0))) console with
  | ok _ after =>
      refine .succeeds (.nothing (fun jumps => ?_) ?_) ⟨fun silent => ?_, fun _ => ?_⟩
      · exact absurd (isWrite ▸ jumps.operation_mem) (by decide)
      · rw [isWrite]
        decide
      · rw [isWrite] at silent
        exact absurd (by decide) silent
      · exact Prod.mk.inj ((Console.keeps_input_writeLine _).of_ok written)
  | error cause after => exact .fails cause .nothing after

theorem Agrees.callThrough (agrees : instruction.Agrees first second)
    (isCall : instruction.operation = .call) {target : Int}
    (leads : instruction.destination? first = some target) :
    SameEffect instruction console first second
      (callThrough fetchedAt (instruction.register 0) target ⟨first, console⟩)
      (callThrough fetchedAt (instruction.register 0) target ⟨second, console⟩) := by
  simp only [Instruction.callThrough, bind, EStateM.bind, Bench.update, State.assign, ← agrees.pc]
  cases held : Word.ofInt? first.pc with
  | none => exact .fails _ .nothing console
  | some link =>
      have links := Word.ofInt?_eq_some_iff.mp held
      have kept : ∀ state : State, (state.setRegister (instruction.register 0) link).isCodeAddress
          target = state.isCodeAddress target := fun _ => rfl
      dsimp only [State.jump]
      rw [kept, kept, agrees.isCodeAddress_eq]
      cases isCode : first.isCodeAddress target with
      | false => exact .fails _ (.register (instruction.register 0) link) console
      | true =>
          obtain ⟨address, inCode, rfl⟩ := State.isCodeAddress_iff.mp isCode
          exact .succeeds (.call isCall links leads inCode) ⟨fun _ => rfl, fun _ => ⟨rfl, rfl⟩⟩

theorem sameEffect_execute (agrees : instruction.Agrees first second) :
    SameEffect instruction console first second
      (instruction.execute fetchedAt ⟨first, console⟩)
      (instruction.execute fetchedAt ⟨second, console⟩) := by
  unfold execute
  cases operation : instruction.operation
  case data => exact .fails _ .nothing console
  case read => exact .readInto operation
  case write => exact agrees.writeFrom operation
  case call => exact agrees.callThrough operation (by simp only [destination?, target?, operation])
  case nop =>
    refine .succeeds (.nothing (fun jumps => ?_) ?_) ⟨fun _ => rfl, fun _ => ⟨rfl, rfl⟩⟩
    · exact absurd (operation ▸ jumps.operation_mem) (by decide)
    · rw [operation]
      decide
  -- The other operations are plain updates of the state.
  all_goals apply SameUpdate.sameEffect
  case halt => exact .succeeds (.halted operation)
  case jumpi =>
    rw [← agrees.number_eq]
    exact agrees.jump (.inl (by rw [operation]; decide)) (by rw [operation]; decide)
      (by simp only [destination?, operation])
  case jump =>
    exact agrees.jump (.inl (by rw [operation]; decide)) (by rw [operation]; decide)
      (by simp only [destination?, target?, operation])
  case jeqz | jnez | jgtz | jltz =>
    rw [← operation]
    exact agrees.branch (by simp only [destination?, target?, operation])
      (by rw [operation]; decide)
  case store => exact agrees.store (by rw [operation]; decide) (by rw [access?, operation])
  case storei =>
    rw [← agrees.number_eq]
    exact agrees.store (by rw [operation]; decide) (by rw [access?, operation])
  all_goals
    have isWriter : instruction.operation ∈ Operation.registerWriters := by
      rw [operation]
      decide
    have isNoCall : instruction.operation ≠ .call := by
      rw [operation]
      decide
  case load => exact agrees.load isWriter isNoCall (by rw [access?, operation])
  case loadi =>
    rw [← agrees.number_eq]
    exact agrees.load isWriter isNoCall (by rw [access?, operation])
  case loadn => exact .assign isWriter isNoCall _
  case addn | mov | neg =>
    rw [← agrees.number_eq]
    exact .assign isWriter isNoCall _
  case add | sub | mul | div | mod =>
    rw [← operation]
    exact agrees.compute isWriter isNoCall

/-! ## Footprints -/

/-- What a successful execution may change. -/
structure Footprint (instruction : Instruction) (before after : Bench) : Prop where
  otherRegisters : ∀ index, index ≠ instruction.register 0 →
    after.state.registers[index]? = before.state.registers[index]?
  registers : instruction.operation ∉ Operation.registerWriters →
    after.state.registers = before.state.registers
  /-- A store replaces the cell at its effective address by the first register. -/
  cell : instruction.operation ∈ Operation.cellWriters →
    ∃ address : Nat, instruction.access? before.state = some (.store, (address : Int)) ∧
      before.state.codeSize ≤ address ∧ address < memorySize ∧
      after.state.cell? address = some (.data (before.state.register (instruction.register 0))) ∧
      ∀ other, other ≠ address → after.state.cell? other = before.state.cell? other
  memory : instruction.operation ∉ Operation.cellWriters →
    after.state.memory = before.state.memory
  /-- A jump leads to its destination, which is a code address. -/
  lands : instruction.Jumps before.state →
    instruction.destination? before.state = some (after.state.pc : Int) ∧
      after.state.pc < before.state.codeSize
  stays : ¬instruction.Jumps before.state → after.state.pc = before.state.pc
  codeSize : after.state.codeSize = before.state.codeSize
  halted : instruction.operation ≠ .halt → after.state.halted = before.state.halted
  console : instruction.Converses before.console after.console

variable {before : State} {after : Console} {writing : Writing}

/-- An operation that writes a register or a cell is no jump, apart from the call. -/
theorem not_jumps_of_writer (state : State)
    (isWriter : instruction.operation ∈ Operation.registerWriters ++ Operation.cellWriters)
    (isNoCall : instruction.operation ≠ .call) : ¬instruction.Jumps state := by
  have apart : ∀ operation ∈ Operation.registerWriters ++ Operation.cellWriters,
      operation ≠ .call →
        operation ∉ Operation.unconditionalJumps ++ Operation.conditionalJumps := by
    decide
  exact fun jumps => apart _ isWriter isNoCall jumps.operation_mem

private theorem not_cellWriter_of_registerWriter
    (isWriter : instruction.operation ∈ Operation.registerWriters) :
    instruction.operation ∉ Operation.cellWriters := by
  have apart : ∀ operation ∈ Operation.registerWriters, operation ∉ Operation.cellWriters := by
    decide
  exact apart _ isWriter

theorem Writes.footprint (writes : instruction.Writes before writing)
    (converses : instruction.Converses console after) :
    instruction.Footprint ⟨before, console⟩ ⟨writing.apply before, after⟩ := by
  -- the fields about the parts that a writing leaves alone hold by definition
  cases writes with
  | nothing stays storesNot =>
      constructor
      case cell => exact fun stores => absurd stores storesNot
      case lands => exact fun jumps => absurd jumps stays
      case console => exact converses
      all_goals intros; rfl
  | register isWriter isNoCall =>
      have storesNot := not_cellWriter_of_registerWriter isWriter
      have stays := not_jumps_of_writer before (List.mem_append_left _ isWriter) isNoCall
      constructor
      case otherRegisters =>
        exact fun other different => Vector.getElem?_setIfInBounds_ne different.symm
      case registers => exact fun isNone => absurd isWriter isNone
      case cell => exact fun stores => absurd stores storesNot
      case lands => exact fun jumps => absurd jumps stays
      case console => exact converses
      all_goals intros; rfl
  | cell isWriter accesses isData =>
      have isNoCall : instruction.operation ≠ .call := by
        intro isCall
        rw [isCall] at isWriter
        exact absurd isWriter (by decide)
      have stays := not_jumps_of_writer before (List.mem_append_right _ isWriter) isNoCall
      constructor
      case cell =>
        intro _
        refine ⟨_, accesses, isData.1, isData.2, ?_, fun other different => ?_⟩
        · exact State.cell?_setData_same _ _ isData.2
        · exact State.cell?_setData_other _ _ different
      case memory => exact fun isNone => absurd isWriter isNone
      case lands => exact fun jumps => absurd jumps stays
      case console => exact converses
      all_goals intros; rfl
  | pc jumps isNoCall leads inCode =>
      constructor
      case cell =>
        exact fun stores =>
          absurd jumps (not_jumps_of_writer before (List.mem_append_right _ stores) isNoCall)
      case lands => exact fun _ => ⟨leads, inCode⟩
      case stays => exact fun stays => absurd jumps stays
      case console => exact converses
      all_goals intros; rfl
  | call isCall links leads inCode =>
      have isWriter : instruction.operation ∈ Operation.registerWriters := by
        rw [isCall]
        decide
      have jumps : instruction.Jumps before := by
        left
        rw [isCall]
        decide
      constructor
      case otherRegisters =>
        exact fun other different => Vector.getElem?_setIfInBounds_ne different.symm
      case registers => exact fun isNone => absurd isWriter isNone
      case cell => exact fun stores => absurd stores (not_cellWriter_of_registerWriter isWriter)
      case lands => exact fun _ => ⟨leads, inCode⟩
      case stays => exact fun stays => absurd jumps stays
      case console => exact converses
      all_goals intros; rfl
  | halted isHalt =>
      constructor
      case cell =>
        rw [isHalt]
        exact fun stores => absurd stores (by decide)
      case lands => exact fun jumps => absurd (isHalt ▸ jumps.operation_mem) (by decide)
      case halted => exact fun isOther => absurd isHalt isOther
      case console => exact converses
      all_goals intros; rfl

/-- A successful execution does a writing that the instruction may do. -/
theorem exists_writes_of_execute {before after : Bench}
    (executed : instruction.execute fetchedAt before = .ok () after) :
    ∃ writing, instruction.Writes before.state writing ∧
      instruction.Converses before.console after.console ∧
      after.state = writing.apply before.state := by
  have same := @sameEffect_execute instruction before.console before.state before.state fetchedAt
    (.refl instruction before.state)
  generalize ran : instruction.execute fetchedAt ⟨before.state, before.console⟩ = result at same
  cases same with
  | succeeds writes converses =>
      cases ran.symm.trans executed
      exact ⟨_, writes, converses, rfl⟩
  | fails cause writing console => cases ran.symm.trans executed

theorem footprint_of_execute {before after : Bench}
    (executed : instruction.execute fetchedAt before = .ok () after) :
    instruction.Footprint before after := by
  obtain ⟨writing, writes, converses, written⟩ := exists_writes_of_execute executed
  have footprint := writes.footprint converses
  rw [← written] at footprint
  exact footprint

theorem changes_of_execute {before after : Bench}
    (executed : instruction.execute fetchedAt before = .ok () after) :
    instruction.Changes before.state after.state := by
  obtain ⟨writing, writes, -, written⟩ := exists_writes_of_execute executed
  rw [written]
  cases writes with
  | nothing => exact .nothing
  | register => exact .assign _
  | cell isWriter accesses isData =>
      exact .store accesses (State.isDataAddress_iff.mpr ⟨_, isData.1, isData.2, rfl⟩)
  | pc jumps isNoCall leads inCode => exact .jump inCode
  | call isCall links leads inCode => exact .call isCall links inCode
  | halted isHalt => exact .halt isHalt

/-- A successful execution changes only its footprint. In two states that agree where the
instruction looks, the execution has the same effect. -/
theorem effect_within_footprint (instruction : Instruction) (fetchedAt : Nat) (before : Bench) :
    (∀ after, instruction.execute fetchedAt before = .ok () after →
        instruction.Footprint before after) ∧
      ∀ other : State, instruction.Agrees before.state other →
        instruction.SameEffect before.console before.state other
          (instruction.execute fetchedAt before)
          (instruction.execute fetchedAt ⟨other, before.console⟩) :=
  ⟨fun _ executed => footprint_of_execute executed, fun _ agrees => sameEffect_execute agrees⟩

/-- A state with a number to store and the address for it. -/
def storing : State :=
  ((State.ofImage ⟨[]⟩).setRegister 1 7).setRegister 2 200

/-- A state that differs from it in a register that no operand names and in another cell. -/
def storingBeside : State :=
  (storing.setRegister 5 9).setData 201 3

/-- A store writes cell 200 of both states, and nothing else. -/
theorem stores_beside :
    ∃ after : Bench, (decode 0x4121).execute 0 ⟨storing, .start [] .calm⟩ = .ok () after ∧
      after.state.cell? 200 = some (.data 7) ∧ after.state.registers = storing.registers ∧
      (decode 0x4121).execute 0 ⟨storingBeside, .start [] .calm⟩ =
        .ok () ⟨storingBeside.setData 200 7, .start [] .calm⟩ := by
  have accesses : (decode 0x4121).access? storing = some (.store, 200) := by decide
  have agrees : (decode 0x4121).Agrees storing storingBeside := by
    refine ⟨rfl, rfl, ?_, fun address loads => ?_⟩
    · have operands : (decode 0x4121).operands = [.register 1, .register 2] := by decide
      simp only [operands, List.mem_cons, List.not_mem_nil, or_false, Operand.register.injEq]
      rintro number (rfl | rfl)
      · decide
      · decide
    · cases accesses.symm.trans loads
  have succeeds : outcome ((decode 0x4121).execute 0 ⟨storing, .start [] .calm⟩) = .ok () := by
    decide
  obtain ⟨within, alike⟩ := effect_within_footprint (decode 0x4121) 0 ⟨storing, .start [] .calm⟩
  have executed := eq_ok_of_outcome succeeds
  have footprint := within _ executed
  obtain ⟨address, accessed, -, -, stored, -⟩ := footprint.cell (by decide)
  cases accesses.symm.trans accessed
  refine ⟨_, executed, stored, footprint.registers (by decide), ?_⟩
  have same := alike storingBeside agrees
  dsimp only at same
  generalize (decode 0x4121).execute 0 ⟨storing, .start [] .calm⟩ = first at same executed
  generalize (decode 0x4121).execute 0 ⟨storingBeside, .start [] .calm⟩ = second at same ⊢
  cases same with
  | fails => cases executed
  | succeeds writes converses =>
      cases writes with
      | cell isWriter accessed isData =>
          cases accesses.symm.trans accessed
          rw [converses.silent (by decide)]
          rfl
      | nothing stays storesNot => exact absurd (by decide) storesNot
      | register isWriter => exact absurd isWriter (by decide)
      | pc jumps => exact absurd jumps.operation_mem (by decide)
      | call isCall => exact absurd isCall (by decide)
      | halted isHalt => exact absurd isHalt (by decide)

end Instruction

end MiniatureMachine
