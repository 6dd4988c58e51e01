import MiniatureMachine.Machine.Execution
import MiniatureMachine.Proofs.Effects
import MiniatureMachine.Proofs.Isa.Nibbles

/-!
Contract: what the execution of an instruction can do to the machine.

Owns:
- the causes that a dialogue with the operator can fail with;
- the numbers that a word holds;
- the changes that a successful execution makes to the state;
- all ways in which an execution fails, and the state each of them leaves.

Does not own: that a successful execution makes no other change. It follows from the
writings of an instruction.

The operations are gone through one by one for the failures and, elsewhere, for the
writings. Every law about steps and runs is derived from these.
-/

namespace MiniatureMachine

open Effects

/-! ## Causes of a failing dialogue -/

/-- The causes that come from the operator or from the console. -/
def FaultCause.IsFromDialogue : FaultCause → Prop
  | .interrupted | .endOfInput | .aborted | .console _ => True
  | _ => False

/-- The causes that tell what is wrong with the address of a fetch. -/
def FaultCause.IsFromFetch : FaultCause → Prop
  | .memoryOutOfBounds _ | .badInstruction _ => True
  | _ => False

namespace Console

theorem write_eq_error {text : String} {before after : Console} {cause : FaultCause}
    (failed : write text before = .error cause after) :
    ∃ failure, cause = .console failure := by
  unfold write at failed
  split at failed
  · rename_i failure scheduled
    cases failed
    exact ⟨failure, rfl⟩
  · cases failed

theorem writeLine_eq_error {text : String} {before after : Console} {cause : FaultCause}
    (failed : writeLine text before = .error cause after) :
    ∃ failure, cause = .console failure := by
  rcases bind_eq_error_iff.mp failed with inText | ⟨_, _, -, inNewline⟩
  · exact write_eq_error inText
  · exact write_eq_error inNewline

/-- Writing takes no input. -/
theorem keeps_input_write (text : String) :
    Keeps (fun console => (console.script, console.reads)) (write text) := by
  intro before
  unfold write
  dsimp only
  split <;> rfl

theorem keeps_input_writeLine (text : String) :
    Keeps (fun console => (console.script, console.reads)) (writeLine text) :=
  (keeps_input_write text).bind fun _ => keeps_input_write "\n"

theorem failsOnly_write (text : String) : FailsOnly FaultCause.IsFromDialogue (write text) := by
  intro before cause after failed
  obtain ⟨failure, rfl⟩ := write_eq_error failed
  trivial

theorem failsOnly_writeLine (text : String) :
    FailsOnly FaultCause.IsFromDialogue (writeLine text) :=
  (failsOnly_write text).bind fun _ => failsOnly_write "\n"

private theorem failsOnly_readLine : FailsOnly FaultCause.IsFromDialogue readLine := by
  intro before cause after failed
  unfold readLine at failed
  split at failed
  · cases failed
    trivial
  · split at failed <;> cases failed

private theorem failsOnly_demand (reply : Reply) :
    FailsOnly FaultCause.IsFromDialogue (demand reply) := by
  intro before cause after failed
  cases reply <;> cases failed <;> trivial

theorem failsOnly_promptLine (text : String) :
    FailsOnly FaultCause.IsFromDialogue (promptLine text) :=
  ((failsOnly_write text).bind fun _ => failsOnly_readLine).bind
    failsOnly_demand

end Console

open Console in
private theorem NumberInput.failsOnly_retry :
    FailsOnly FaultCause.IsFromDialogue NumberInput.retry := by
  intro before cause after failed
  fun_induction NumberInput.retry before with
  | case1 console cause' after' noticed =>
      cases failed
      exact failsOnly_writeLine _ _ _ _ noticed
  | case2 console middle noticed cause' after' obtained =>
      cases failed
      exact failsOnly_promptLine _ _ _ _ obtained
  | case3 console middle noticed after' obtained =>
      cases failed
      trivial
  | case4 console middle noticed line after' obtained notQuit word parsed =>
      cases failed
  | case5 console middle noticed line after' obtained notQuit parsed inductionHypothesis =>
      exact inductionHypothesis failed

private theorem NumberInput.failsOnly_read :
    FailsOnly FaultCause.IsFromDialogue NumberInput.read := by
  refine Console.failsOnly_readLine.bind fun reply => ?_
  refine (Console.failsOnly_demand reply).bind fun line => ?_
  split
  · exact .pure _
  · exact failsOnly_retry

/-! ## Updates of the state -/

namespace Bench

theorem update_eq_ok_iff {change : State → Except FaultCause State} {before after : Bench} :
    update change before = .ok () after ↔
      ∃ state, change before.state = .ok state ∧ { before with state := state } = after := by
  unfold update
  cases change before.state <;> simp

theorem update_eq_error_iff {change : State → Except FaultCause State}
    {before after : Bench} {cause : FaultCause} :
    update change before = .error cause after ↔
      change before.state = .error cause ∧ before = after := by
  unfold update
  cases change before.state <;> simp

def consolePart : StatePart Bench Console where
  get := Bench.console
  put console bench := { bench with console := console }
  get_put _ _ := rfl
  put_put _ _ _ := rfl

theorem converse_eq_lift {α : Type} (dialogue : Dialogue α) :
    converse dialogue = consolePart.lift id dialogue := by
  funext bench
  unfold converse StatePart.lift consolePart
  dsimp only
  cases dialogue bench.console <;> rfl

private theorem keeps_state_converse {α : Type} (dialogue : Dialogue α) :
    Keeps Bench.state (converse dialogue) := by
  intro before
  unfold converse
  cases dialogue before.console <;> rfl

theorem failsOnly_converse {α : Type} {kind : FaultCause → Prop} {dialogue : Dialogue α}
    (fails : FailsOnly kind dialogue) : FailsOnly kind (converse dialogue) := by
  intro before cause after failed
  unfold converse at failed
  cases ran : dialogue before.console with
  | ok value console =>
      rw [ran] at failed
      cases failed
  | error cause' console =>
      rw [ran] at failed
      cases failed
      exact fails _ _ _ ran

end Bench

/-! ## Numbers that a word holds -/

namespace Word

/-- A number that a word holds. -/
def InRange (number : Int) : Prop :=
  minimum ≤ number ∧ number ≤ maximum

theorem inRange_iff {number : Int} : InRange number ↔ -32768 ≤ number ∧ number ≤ 32767 :=
  Iff.rfl

theorem inRange_toInt (word : Word) : InRange word.toInt := by
  have lower := BitVec.le_toInt word
  have upper := @BitVec.toInt_lt 16 word
  unfold InRange minimum maximum
  omega

theorem ofInt?_eq_none_iff {number : Int} : ofInt? number = none ↔ ¬InRange number := by
  unfold ofInt? InRange
  split <;> simp_all

theorem exists_of_inRange {number : Int} (inRange : InRange number) :
    ∃ word : Word, word.toInt = number :=
  ⟨_, ofInt?_eq_some_iff.mp (if_pos inRange)⟩

/-- A word holds the addresses of the memory, and the one behind them. -/
theorem ofInt?_of_address {address : Nat} (small : address ≤ memorySize) :
    ofInt? address = some (BitVec.ofInt 16 address) := by
  have inRange : minimum ≤ (address : Int) ∧ (address : Int) ≤ maximum := by
    unfold memorySize at small
    unfold minimum maximum
    omega
  rw [ofInt?, if_pos inRange]

end Word

namespace State

theorem assign_eq_ok_iff {index : Nat} {number : Int} {before after : State} :
    assign index number before = .ok after ↔
      ∃ word : Word, word.toInt = number ∧ before.setRegister index word = after := by
  unfold assign
  cases held : Word.ofInt? number with
  | none =>
      simp only [reduceCtorEq, false_iff]
      rintro ⟨word, reads, -⟩
      rw [Word.ofInt?_eq_some_iff.mpr reads] at held
      cases held
  | some word =>
      have reads := Word.ofInt?_eq_some_iff.mp held
      constructor
      · rintro ⟨⟩
        exact ⟨word, reads, rfl⟩
      · rintro ⟨word', reads', rfl⟩
        rw [BitVec.eq_of_toInt_eq (reads'.trans reads.symm)]

theorem assign_eq_error_iff {index : Nat} {number : Int} {before : State}
    {cause : FaultCause} :
    assign index number before = .error cause ↔
      Word.ofInt? number = none ∧ .integerOverflow number = cause := by
  unfold assign
  cases Word.ofInt? number <;> simp

theorem isCodeAddress_iff {state : State} {target : Int} :
    state.isCodeAddress target = true ↔ ∃ address < state.codeSize, (address : Int) = target := by
  simp only [isCodeAddress, Bool.and_eq_true, decide_eq_true_eq]
  constructor
  · rintro ⟨lower, upper⟩
    exact ⟨target.toNat, by omega, by omega⟩
  · rintro ⟨address, inCode, rfl⟩
    omega

theorem isDataAddress_iff {state : State} {target : Int} :
    state.isDataAddress target = true ↔
      ∃ address, state.codeSize ≤ address ∧ address < memorySize ∧ (address : Int) = target := by
  simp only [isDataAddress, Bool.and_eq_true, decide_eq_true_eq]
  constructor
  · rintro ⟨lower, upper⟩
    exact ⟨target.toNat, by omega, by omega, by omega⟩
  · rintro ⟨address, lower, upper, rfl⟩
    omega

theorem jump_eq_error_iff {fetchedAt : Nat} {target : Int} {before : State}
    {cause : FaultCause} :
    jump fetchedAt target before = .error cause ↔
      before.isCodeAddress target = false ∧ .invalidJumpTarget fetchedAt target = cause := by
  unfold jump
  cases before.isCodeAddress target <;> simp

private theorem load_eq_ok_iff {fetchedAt index : Nat} {target : Int} {before after : State} :
    load fetchedAt index target before = .ok after ↔
      before.isDataAddress target = true ∧
        before.setRegister index (before.dataAt target.toNat) = after := by
  unfold load
  cases before.isDataAddress target <;> simp

theorem load_eq_error_iff {fetchedAt index : Nat} {target : Int} {before : State}
    {cause : FaultCause} :
    load fetchedAt index target before = .error cause ↔
      before.isDataAddress target = false ∧
        .invalidMemoryTarget fetchedAt .load target = cause := by
  unfold load
  cases before.isDataAddress target <;> simp

private theorem store_eq_ok_iff {fetchedAt index : Nat} {target : Int} {before after : State} :
    store fetchedAt index target before = .ok after ↔
      before.isDataAddress target = true ∧
        before.setData target.toNat (before.register index) = after := by
  unfold store
  cases before.isDataAddress target <;> simp

theorem store_eq_error_iff {fetchedAt index : Nat} {target : Int} {before : State}
    {cause : FaultCause} :
    store fetchedAt index target before = .error cause ↔
      before.isDataAddress target = false ∧
        .invalidMemoryTarget fetchedAt .store target = cause := by
  unfold store
  cases before.isDataAddress target <;> simp

/-- A memory access in either direction. -/
def transfer (access : Access) (fetchedAt index : Nat) (target : Int) (state : State) :
    Except FaultCause State :=
  match access with
  | .load => state.load fetchedAt index target
  | .store => state.store fetchedAt index target

/-- Nobody sees that register zero is cleared. -/
theorem register_clearRegisterZero (state : State) (index : Nat) :
    state.clearRegisterZero.register index = state.register index := by
  by_cases isZero : index = 0
  · subst isZero
    rfl
  · exact register_setRegister_other 0 isZero

end State

namespace Instruction

/-! ## Registers of an instruction -/

theorem register_lt (instruction : Instruction) (position : Nat) :
    instruction.register position < registerCount := by
  unfold register register?
  split
  · rename_i number held
    exact number.isLt
  · decide

theorem register_ne_zero_of_call {word : Word} (calls : (decode word).operation = .call) :
    (decode word).register 0 ≠ 0 := by
  obtain ⟨link, target, visible, decoded⟩ := Word.call_link_ne_zero calls
  rw [decoded]
  intro zero
  exact visible (BitVec.eq_of_toNat_eq zero)

/-! ## Memory accesses -/

/-- The memory access of an instruction: its direction and its effective address, which
is the mathematical value of the operand or of the register. -/
def access? (instruction : Instruction) (state : State) : Option (Access × Int) :=
  match instruction.operation with
  | .load => some (.load, instruction.number 1)
  | .store => some (.store, instruction.number 1)
  | .loadi => some (.load, state.number (instruction.register 1))
  | .storei => some (.store, state.number (instruction.register 1))
  | _ => none

/-! ## What an execution changes -/

/-- The states that an instruction can turn a state into when its execution
succeeds. -/
inductive Changes (instruction : Instruction) (before : State) : State → Prop
  | nothing : Changes instruction before before
  | assign (word : Word) :
      Changes instruction before (before.setRegister (instruction.register 0) word)
  | store {target : Int} (accesses : instruction.access? before = some (.store, target))
      (isData : before.isDataAddress target = true) :
      Changes instruction before
        (before.setData target.toNat (before.register (instruction.register 0)))
  | jump {address : Nat} (inCode : address < before.codeSize) :
      Changes instruction before { before with pc := address }
  | call {link : Word} {address : Nat} (calls : instruction.operation = .call)
      (links : link.toInt = before.pc) (inCode : address < before.codeSize) :
      Changes instruction before
        { before.setRegister (instruction.register 0) link with pc := address }
  | halt (halts : instruction.operation = .halt) :
      Changes instruction before { before with halted := true }

/-- The ways in which the execution of an instruction can fail, with the state
that each of them leaves. -/
inductive Fails (instruction : Instruction) (fetchedAt : Nat) (before : State) :
    FaultCause → State → Prop
  | dialogue {cause : FaultCause} (notCall : instruction.operation ≠ .call)
      (fromDialogue : cause.IsFromDialogue) :
      Fails instruction fetchedAt before cause before
  | overflow {result : Int} (unheld : Word.ofInt? result = none)
      (ofLink : instruction.operation = .call → result = before.pc) :
      Fails instruction fetchedAt before (.integerOverflow result) before
  | division (notCall : instruction.operation ≠ .call) :
      Fails instruction fetchedAt before (.divisionByZero fetchedAt) before
  | memory {access : Access} {target : Int} (notCall : instruction.operation ≠ .call)
      (accesses : instruction.access? before = some (access, target))
      (outside : before.isDataAddress target = false) :
      Fails instruction fetchedAt before (.invalidMemoryTarget fetchedAt access target) before
  | jump {target : Int} (notCall : instruction.operation ≠ .call)
      (outside : before.isCodeAddress target = false) :
      Fails instruction fetchedAt before (.invalidJumpTarget fetchedAt target) before
  | call {link : Word} (calls : instruction.operation = .call) (links : link.toInt = before.pc)
      (outside : before.isCodeAddress (instruction.number 1) = false) :
      Fails instruction fetchedAt before (.invalidJumpTarget fetchedAt (instruction.number 1))
        (before.setRegister (instruction.register 0) link)
  | opcode (isData : instruction.operation = .data) :
      Fails instruction fetchedAt before (.invalidOpcode fetchedAt) before

variable {instruction : Instruction} {fetchedAt : Nat} {before after : State}

/-- An instruction that accesses memory does nothing else. -/
theorem execute_of_access {access : Access} {target : Int}
    (accesses : instruction.access? before = some (access, target)) (console : Console) :
    instruction.execute fetchedAt ⟨before, console⟩ =
      Bench.update (State.transfer access fetchedAt (instruction.register 0) target)
        ⟨before, console⟩ := by
  cases operation : instruction.operation <;> simp only [access?, operation] at accesses
  case load | store | loadi | storei =>
    obtain ⟨rfl, rfl⟩ := Prod.mk.inj (Option.some.inj accesses)
    simp only [execute, operation, Bench.update, State.transfer]
  all_goals cases accesses

/-- A load that succeeds copies the data cell at its effective address. -/
theorem load_of_execute {console : Console} {bench : Bench} {target : Int}
    (accesses : instruction.access? before = some (.load, target))
    (executed : instruction.execute fetchedAt ⟨before, console⟩ = .ok () bench) :
    before.isDataAddress target = true ∧
      bench.state = before.setRegister (instruction.register 0) (before.dataAt target.toNat) := by
  rw [execute_of_access accesses] at executed
  obtain ⟨state, loaded, rfl⟩ := Bench.update_eq_ok_iff.mp executed
  obtain ⟨isData, rfl⟩ := State.load_eq_ok_iff.mp loaded
  exact ⟨isData, rfl⟩

/-- A store that succeeds copies the register to the data cell at its effective address. -/
theorem store_of_execute {console : Console} {bench : Bench} {target : Int}
    (accesses : instruction.access? before = some (.store, target))
    (executed : instruction.execute fetchedAt ⟨before, console⟩ = .ok () bench) :
    before.isDataAddress target = true ∧
      bench.state = before.setData target.toNat (before.register (instruction.register 0)) := by
  rw [execute_of_access accesses] at executed
  obtain ⟨state, stored, rfl⟩ := Bench.update_eq_ok_iff.mp executed
  obtain ⟨isData, rfl⟩ := State.store_eq_ok_iff.mp stored
  exact ⟨isData, rfl⟩

/-- Only a store changes the memory. -/
theorem Changes.memory_eq (changes : instruction.Changes before after)
    (notStore : ∀ target, instruction.access? before ≠ some (.store, target)) :
    after.memory = before.memory ∧ after.codeSize = before.codeSize := by
  cases changes with
  | store accesses isData => exact absurd accesses (notStore _)
  | nothing | assign | jump | call | halt => exact ⟨rfl, rfl⟩

/-- Only a halt sets the flag, and it changes nothing else. -/
theorem Changes.eq_of_halted (changes : instruction.Changes before after)
    (running : before.halted = false) (halted : after.halted = true) :
    { before with halted := true } = after := by
  cases changes with
  | halt halts => rfl
  | nothing | assign | store | jump | call => cases running.symm.trans halted

/-! ## How an execution fails -/

variable {cause : FaultCause}

private theorem Fails.of_assign {index : Nat} {number : Int}
    (notCall : instruction.operation ≠ .call)
    (refused : before.assign index number = .error cause) :
    instruction.Fails fetchedAt before cause before := by
  obtain ⟨unheld, rfl⟩ := State.assign_eq_error_iff.mp refused
  exact .overflow unheld fun calls => absurd calls notCall

private theorem Fails.of_jump {target : Int} (notCall : instruction.operation ≠ .call)
    (refused : before.jump fetchedAt target = .error cause) :
    instruction.Fails fetchedAt before cause before := by
  obtain ⟨outside, rfl⟩ := State.jump_eq_error_iff.mp refused
  exact .jump notCall outside

private theorem Fails.of_load {index : Nat} {target : Int} (notCall : instruction.operation ≠ .call)
    (accesses : instruction.access? before = some (.load, target))
    (refused : before.load fetchedAt index target = .error cause) :
    instruction.Fails fetchedAt before cause before := by
  obtain ⟨outside, rfl⟩ := State.load_eq_error_iff.mp refused
  exact .memory notCall accesses outside

private theorem Fails.of_store {index : Nat} {target : Int}
    (notCall : instruction.operation ≠ .call)
    (accesses : instruction.access? before = some (.store, target))
    (refused : before.store fetchedAt index target = .error cause) :
    instruction.Fails fetchedAt before cause before := by
  obtain ⟨outside, rfl⟩ := State.store_eq_error_iff.mp refused
  exact .memory notCall accesses outside

private theorem Fails.of_compute {operation : Operation} {index left right : Nat}
    (notCall : instruction.operation ≠ .call)
    (refused : before.compute fetchedAt operation index left right = .error cause) :
    instruction.Fails fetchedAt before cause before := by
  unfold State.compute at refused
  split at refused
  · exact .of_assign notCall refused
  · cases refused
    exact .division notCall

private theorem Fails.of_branch {operation : Operation} {index : Nat} {target : Int}
    (notCall : instruction.operation ≠ .call)
    (refused : before.branch fetchedAt operation index target = .error cause) :
    instruction.Fails fetchedAt before cause before := by
  unfold State.branch at refused
  split at refused
  · exact .of_jump notCall refused
  · cases refused

/-- A call fails when no word holds the link, or else when the jump is refused. In
the second case the link stays. -/
theorem Fails.of_callThrough {bench bench' : Bench}
    (calls : instruction.operation = .call)
    (failed : callThrough fetchedAt (instruction.register 0) (instruction.number 1) bench =
      .error cause bench') :
    instruction.Fails fetchedAt bench.state cause bench'.state := by
  rcases bind_eq_error_iff.mp failed with inLink | ⟨_, middle, linked, inJump⟩
  · obtain ⟨refused, rfl⟩ := Bench.update_eq_error_iff.mp inLink
    obtain ⟨unheld, rfl⟩ := State.assign_eq_error_iff.mp refused
    exact .overflow unheld fun _ => rfl
  · obtain ⟨_, assigned, rfl⟩ := Bench.update_eq_ok_iff.mp linked
    obtain ⟨link, links, rfl⟩ := State.assign_eq_ok_iff.mp assigned
    obtain ⟨refused, rfl⟩ := Bench.update_eq_error_iff.mp inJump
    obtain ⟨outside, rfl⟩ := State.jump_eq_error_iff.mp refused
    exact .call calls links outside

private theorem Fails.of_converse {α : Type} {dialogue : Dialogue α} {bench bench' : Bench}
    (notCall : instruction.operation ≠ .call)
    (fails : FailsOnly FaultCause.IsFromDialogue dialogue)
    (failed : Bench.converse dialogue bench = .error cause bench') :
    instruction.Fails fetchedAt bench.state cause bench'.state := by
  rw [(Bench.keeps_state_converse dialogue).of_error failed]
  exact .dialogue notCall (Bench.failsOnly_converse fails _ _ _ failed)

theorem fails_of_execute {bench bench' : Bench}
    (failed : instruction.execute fetchedAt bench = .error cause bench') :
    instruction.Fails fetchedAt bench.state cause bench'.state := by
  cases operation : instruction.operation <;> simp only [execute, operation] at failed
  case call => exact .of_callThrough operation failed
  all_goals have notCall : instruction.operation ≠ .call := by rw [operation]; decide
  case nop => cases failed
  case data =>
    cases failed
    exact .opcode operation
  case read =>
    rcases bind_eq_error_iff.mp failed with inDialogue | ⟨word, middle, -, inUpdate⟩
    · exact .of_converse notCall NumberInput.failsOnly_read inDialogue
    · obtain ⟨refused, -⟩ := Bench.update_eq_error_iff.mp inUpdate
      cases refused
  case write =>
    rcases bind_eq_error_iff.mp failed with ⟨⟨⟩⟩ | ⟨seen, middle, looked, inDialogue⟩
    cases looked
    exact .of_converse notCall (Console.failsOnly_writeLine _) inDialogue
  -- The other operations are plain updates of the state.
  all_goals obtain ⟨refused, rfl⟩ := Bench.update_eq_error_iff.mp failed
  case halt => cases refused
  case jumpi | jump => exact .of_jump notCall refused
  case loadn | addn | mov | neg => exact .of_assign notCall refused
  case load | loadi => exact .of_load notCall (by rw [access?, operation]) refused
  case store | storei => exact .of_store notCall (by rw [access?, operation]) refused
  case add | sub | mul | div | mod => exact .of_compute notCall refused
  case jeqz | jnez | jgtz | jltz => exact .of_branch notCall refused

/-! ## Which causes an execution has -/

/-- Executing never finds the counter outside the code or at a malformed cell: only a
fetch does. -/
theorem Fails.not_isFromFetch (fails : instruction.Fails fetchedAt before cause after) :
    ¬cause.IsFromFetch := by
  intro fromFetch
  cases fails with
  | @dialogue cause notCall fromDialogue =>
      cases cause <;> simp_all [FaultCause.IsFromDialogue, FaultCause.IsFromFetch]
  | overflow | division | memory | jump | call | opcode => exact fromFetch

/-- Only a word that is no instruction has an invalid opcode. -/
theorem Fails.data_of_invalidOpcode {pc : Nat}
    (fails : instruction.Fails fetchedAt before (.invalidOpcode pc) after) :
    pc = fetchedAt ∧ instruction.operation = .data := by
  cases fails with
  | dialogue notCall fromDialogue => cases fromDialogue
  | opcode isData => exact ⟨rfl, isData⟩

/-- An invalid target is the effective address of the instruction. -/
theorem Fails.access_of_invalidMemoryTarget {pc : Nat} {access : Access} {target : Int}
    (fails : instruction.Fails fetchedAt before (.invalidMemoryTarget pc access target) after) :
    pc = fetchedAt ∧ instruction.access? before = some (access, target) ∧
      before.isDataAddress target = false := by
  cases fails with
  | dialogue notCall fromDialogue => cases fromDialogue
  | memory notCall accesses outside => exact ⟨rfl, accesses, outside⟩

def RefusesCall (instruction : Instruction) (fetchedAt : Nat) (cause : FaultCause) : Prop :=
  instruction.operation = .call ∧ cause = .invalidJumpTarget fetchedAt (instruction.number 1)

/-- A failing instruction leaves the state as it was, unless it is a call whose
target is refused. That has left its link. -/
theorem Fails.unchanged_or_linked (fails : instruction.Fails fetchedAt before cause after) :
    (¬instruction.RefusesCall fetchedAt cause ∧ after = before) ∨
      (instruction.RefusesCall fetchedAt cause ∧ ∃ link : Word, link.toInt = before.pc ∧
        after = before.setRegister (instruction.register 0) link) := by
  cases fails with
  | call calls links outside => exact .inr ⟨⟨calls, rfl⟩, _, links, rfl⟩
  | overflow unheld ofLink =>
      refine .inl ⟨?_, rfl⟩
      rintro ⟨-, ⟨⟩⟩
  | dialogue notCall | division notCall | memory notCall | jump notCall =>
      exact .inl ⟨fun refuses => notCall refuses.1, rfl⟩
  | opcode isData =>
      refine .inl ⟨?_, rfl⟩
      rintro ⟨calls, -⟩
      cases isData.symm.trans calls

theorem Fails.overflow_of_call {result : Int}
    (fails : instruction.Fails fetchedAt before (.integerOverflow result) after)
    (calls : instruction.operation = .call) :
    Word.ofInt? result = none ∧ result = before.pc := by
  cases fails with
  | dialogue notCall fromDialogue => cases fromDialogue
  | overflow unheld ofLink => exact ⟨unheld, ofLink calls⟩

end Instruction

end MiniatureMachine
