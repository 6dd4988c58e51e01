import MiniatureMachine.Machine.Run
import MiniatureMachine.Proofs.Isa.Nibbles
import MiniatureMachine.Proofs.Machine.Step

/-!
Contract: the invariant of a machine that was started on an image.

Owns:
- the sessions that a machine goes through, with a host that does as it likes
  between the steps;
- what holds of the state in all of them, and also after a fault;
- what follows for the faults of a step.

The code cells are those of the image, the data cells follow them, and the
program counter never leaves the code by more than one. Register zero is stored as
zero even after a fault: only a call writes a register and then fails, and no word
decodes to a call with register zero.
-/

namespace MiniatureMachine

open Effects

/-! ## Reachable sessions -/

namespace Session

/-- The sessions of a machine on an image, as long as its steps do not fault.
Between two steps the host may replace the console: it may queue entries, raise the
interrupt flag or change the schedule of failing calls. -/
inductive Reachable (image : Image) (options : SessionOptions) : Session → Prop
  | start (console : Console) : Reachable image options (start image options console)
  | host {session : Session} (reached : Reachable image options session)
      (console : Console) : Reachable image options { session with console := console }
  | step {session after : Session} {outcome : StepOutcome}
      (reached : Reachable image options session)
      (stepped : Session.step session = .ok outcome after) : Reachable image options after

variable {image : Image} {options : SessionOptions}

theorem Reachable.advance {count : Nat} {session after : Session}
    {outcome? : Option StepOutcome} (reached : Reachable image options session)
    (advanced : advance count session = .ok outcome? after) :
    Reachable image options after := by
  induction count generalizing session outcome? with
  | zero =>
      cases advanced
      exact reached
  | succ count inductionHypothesis =>
      unfold Session.advance at advanced
      split at advanced
      · cases advanced
      · rename_i stepped
        cases advanced
        exact reached.step stepped
      · rename_i middle stepped
        split at advanced
        · rename_i ended
          cases advanced
          exact inductionHypothesis (reached.step stepped) ended
        · exact inductionHypothesis (reached.step stepped) advanced

/-- Steps that end with a fault go through reachable sessions up to the last. -/
theorem Reachable.advance_error {count : Nat} {session after : Session} {fault : Fault}
    (reached : Reachable image options session)
    (faulted : Session.advance count session = .error fault after) :
    ∃ last, Reachable image options last ∧ Session.step last = .error fault after := by
  induction count generalizing session with
  | zero => cases faulted
  | succ count inductionHypothesis =>
      unfold Session.advance at faulted
      split at faulted
      · rename_i stepped
        cases faulted
        exact ⟨session, reached, stepped⟩
      · cases faulted
      · rename_i middle stepped
        split at faulted
        · cases faulted
        · exact inductionHypothesis (reached.step stepped) faulted

end Session

/-! ## The invariant -/

namespace State

/-- What holds of the state of a machine that was started on an image. -/
structure SoundFor (image : Image) (state : State) : Prop where
  codeSize_eq : state.codeSize = min image.codeSize memorySize
  /-- The code cells are those of the image. -/
  code : ∀ address < state.codeSize, ∃ word?, image.words[address]? = some word? ∧
    state.cell? address = some (.code word?)
  /-- All other cells hold data. -/
  data : ∀ address, state.codeSize ≤ address → address < memorySize →
    ∃ word, state.cell? address = some (.data word) ∧ Word.InRange word.toInt
  pc_le : state.pc ≤ state.codeSize
  /-- Also what is stored in register zero is zero. -/
  registerZero : state.registers[0]? = some 0
  registers : ∀ word ∈ state.registers, Word.InRange word.toInt
  /-- A machine that has halted stands behind a zero word. -/
  halted : state.halted = true → ∃ address, state.pc = address + 1 ∧
    image.words[address]? = some (some 0)

variable {image : Image} {state : State}

/-! ### What writes leave -/

theorem registers_clearRegisterZero : state.clearRegisterZero.registers[0]? = some 0 :=
  Vector.getElem?_setIfInBounds_self_of_lt (by decide)

private theorem registers_setRegister {index : Nat} (word : Word) (different : index ≠ 0) :
    (state.setRegister index word).registers[0]? = state.registers[0]? := by
  simp [setRegister, different]

/-! ### The invariant through the parts of a step -/

theorem soundFor_ofImage (image : Image) : (ofImage image).SoundFor image where
  codeSize_eq := rfl
  code := by
    intro address inCode
    have bounds : address < image.words.length ∧ address < memorySize := Nat.lt_min.mp inCode
    exact ⟨image.words[address], List.getElem?_eq_getElem bounds.1, by
      rw [cell?_ofImage image bounds.2, List.getElem?_eq_getElem bounds.1]⟩
  data := by
    intro address notCode inMemory
    have behind : image.words.length ≤ address := by
      simp only [ofImage, Image.codeSize] at notCode
      omega
    exact ⟨0, by rw [cell?_ofImage image inMemory, List.getElem?_eq_none behind],
      Word.inRange_toInt 0⟩
  pc_le := Nat.zero_le _
  registerZero := Vector.getElem?_replicate.trans (if_pos (by decide))
  registers := fun word _ => Word.inRange_toInt word
  halted := by
    intro halted
    cases halted

/-- What a code cell holds is what the image has there. -/
theorem SoundFor.words_of_cell {address : Nat} {word? : Option Word}
    (sound : state.SoundFor image) (inCode : address < state.codeSize)
    (held : state.cell? address = some (.code word?)) : image.words[address]? = some word? := by
  obtain ⟨_, given, found⟩ := sound.code address inCode
  cases held.symm.trans found
  exact given

theorem SoundFor.advance (sound : state.SoundFor image)
    (inCode : state.pc < state.codeSize) (running : state.halted = false) :
    state.advance.SoundFor image :=
  { sound with
    pc_le := inCode
    halted := fun halted => by
      rw [State.advance, running] at halted
      cases halted }

/-- A sound state stays sound when its data cells, its counter or its flag change as
an instruction changes them. The stored register zero is cleared afterwards. -/
theorem SoundFor.of_changes {instruction : Instruction} {after : State}
    (sound : state.SoundFor image) (running : state.halted = false)
    (zeroWord : instruction.operation = .halt →
      ∃ address, state.pc = address + 1 ∧ image.words[address]? = some (some 0))
    (changes : instruction.Changes state after) :
    after.clearRegisterZero.SoundFor image := by
  cases changes with
  | nothing | assign word =>
      exact { sound with
        registerZero := registers_clearRegisterZero
        registers := fun word _ => Word.inRange_toInt word }
  | @store target accesses isData =>
      obtain ⟨address, notCode, inMemory, rfl⟩ := isDataAddress_iff.mp isData
      refine { sound with
        code := fun other inCode => ?_
        data := fun other behind below => ?_
        registerZero := registers_clearRegisterZero
        registers := fun word _ => Word.inRange_toInt word }
      · have different : other ≠ address := by
          have : other < state.codeSize := inCode
          omega
        obtain ⟨word?, given, held⟩ := sound.code other inCode
        exact ⟨word?, given, (cell?_setData_other state _ different).trans held⟩
      · by_cases same : other = address
        · subst same
          exact ⟨_, cell?_setData_same state _ inMemory, Word.inRange_toInt _⟩
        · obtain ⟨held, found, inRange⟩ := sound.data other behind below
          exact ⟨held, (cell?_setData_other state _ same).trans found, inRange⟩
  | @jump address inCode =>
      exact { sound with
        pc_le := Nat.le_of_lt inCode
        registerZero := registers_clearRegisterZero
        registers := fun word _ => Word.inRange_toInt word
        halted := fun halted => absurd (running.symm.trans halted) (by decide) }
  | @call link address calls links inCode =>
      exact { sound with
        pc_le := Nat.le_of_lt inCode
        registerZero := registers_clearRegisterZero
        registers := fun word _ => Word.inRange_toInt word
        halted := fun halted => absurd (running.symm.trans halted) (by decide) }
  | halt halts =>
      exact { sound with
        registerZero := registers_clearRegisterZero
        registers := fun word _ => Word.inRange_toInt word
        halted := fun _ => zeroWord halts }

/-- A failing instruction leaves a sound state: at most it has stored a link, and
not in register zero. -/
theorem SoundFor.of_fails {instruction : Instruction} {fetchedAt : Nat} {cause : FaultCause}
    {after : State} (sound : state.SoundFor image)
    (linked : instruction.operation = .call → instruction.register 0 ≠ 0)
    (fails : instruction.Fails fetchedAt state cause after) : after.SoundFor image := by
  cases fails with
  | call calls links outside =>
      exact { sound with
        registerZero := (registers_setRegister _ (linked calls)).trans sound.registerZero
        registers := fun word _ => Word.inRange_toInt word }
  | dialogue | overflow | division | memory | jump | opcode => exact sound

end State

namespace Session

variable {image : Image} {options : SessionOptions} {session after : Session}
  {outcome : StepOutcome} {fault : Fault}

/-- Behind a zero word, the image has a zero word. -/
theorem zeroWord_of_fetched {word : Word} (sound : session.state.SoundFor image)
    (inCode : session.state.pc < session.state.codeSize)
    (held : session.state.cell? session.state.pc = some (.code (some word)))
    (halts : (Instruction.decode word).operation = .halt) :
    ∃ address, session.state.advance.pc = address + 1 ∧
      image.words[address]? = some (some 0) := by
  have given := sound.words_of_cell inCode held
  rw [Word.eq_zero_of_halt halts] at given
  exact ⟨session.state.pc, rfl, given⟩

theorem soundFor_of_step (sound : session.state.SoundFor image)
    (stepped : step session = .ok outcome after) : after.state.SoundFor image := by
  by_cases halted : session.state.halted = true
  · rw [step_of_halted halted] at stepped
    cases stepped
    exact sound
  · have running := Bool.not_eq_true _ ▸ halted
    obtain ⟨word, state, inCode, held, changes, left, -⟩ := changes_of_step running stepped
    rw [left]
    exact (sound.advance inCode running).of_changes running
      (zeroWord_of_fetched sound inCode held) changes

theorem soundFor_of_failsIn {part : StepPart} (sound : session.state.SoundFor image)
    (running : session.state.halted = false) (failed : FailsIn session fault after part) :
    after.state.SoundFor image := by
  cases part with
  | question =>
      rw [failed.machine_of_question.1]
      exact sound
  | fetch =>
      rw [failed.machine_of_fetch.1]
      exact sound
  | commands =>
      obtain ⟨inCode, left, -⟩ := failed.machine_of_commands
      rw [left]
      exact sound.advance inCode running
  | trace =>
      obtain ⟨inCode, left, -⟩ := failed.machine_of_trace
      rw [left]
      exact sound.advance inCode running
  | execution =>
      obtain ⟨word, inCode, held, fails, -⟩ := failed.machine_of_execution
      exact (sound.advance inCode running).of_fails Instruction.register_ne_zero_of_call fails
  | haltNotice =>
      obtain ⟨word, state, inCode, held, changes, -, -, left, -⟩ := failed.machine_of_haltNotice
      rw [left]
      exact (sound.advance inCode running).of_changes running
        (zeroWord_of_fetched sound inCode held) changes

theorem Reachable.soundFor (reached : Reachable image options session) :
    session.state.SoundFor image := by
  induction reached with
  | start console => exact State.soundFor_ofImage image
  | host reached console inductionHypothesis => exact inductionHypothesis
  | step reached stepped inductionHypothesis =>
      exact soundFor_of_step inductionHypothesis stepped

/-! ## Faults of a step -/

/-- A fault outside the bounds names the program counter, which is then outside the
code. -/
theorem outOfBounds_of_step {pc : Nat} (failed : step session = .error fault after)
    (outOfBounds : fault.cause = .memoryOutOfBounds pc) :
    pc = session.state.pc ∧ session.state.codeSize ≤ session.state.pc := by
  rcases refuses_or_fails_of_step failed (by rw [outOfBounds]; exact id) with
    ⟨asked, sameState, refuses⟩ | ⟨word, -, -, fails⟩
  · rw [outOfBounds] at refuses
    rw [← sameState]
    cases refuses with
    | outOfBounds outside => exact ⟨rfl, outside⟩
  · rw [outOfBounds] at fails
    exact absurd trivial fails.not_isFromFetch

/-- The link of a call is an address of the memory, which a word always holds. -/
theorem ne_overflow_of_call {word : Word} {result : Int} (sound : session.state.SoundFor image)
    (failed : step session = .error fault after)
    (held : session.state.cell? session.state.pc = some (.code (some word)))
    (calls : (Instruction.decode word).operation = .call) :
    fault.cause ≠ .integerOverflow result := by
  intro overflow
  rcases refuses_or_fails_of_step failed (by rw [overflow]; exact id) with
    ⟨asked, -, refuses⟩ | ⟨word', inCode, held', fails⟩
  · rw [overflow] at refuses
    cases refuses
  · rw [held] at held'
    cases held'
    rw [overflow] at fails
    obtain ⟨unheld, ofLink⟩ := fails.overflow_of_call calls
    have link : result = (session.state.pc + 1 : Nat) := ofLink
    have small : session.state.pc + 1 ≤ memorySize :=
      Nat.le_trans inCode (sound.codeSize_eq ▸ Nat.min_le_right _ _)
    rw [link, Word.ofInt?_of_address small] at unheld
    cases unheld

/-- On every image, with every console and with whatever the host does between the
steps, the state of a machine is sound, and a step that faults leaves it sound. A
fault outside the bounds names the first address behind the code, and a call never
overflows. -/
theorem reachable_machine_sound (reached : Reachable image options session) :
    session.state.SoundFor image ∧
      ∀ fault after, step session = .error fault after →
        after.state.SoundFor image ∧
          (∀ pc, fault.cause = .memoryOutOfBounds pc → pc = session.state.codeSize) ∧
          ∀ word result, session.state.cell? session.state.pc = some (.code (some word)) →
            (Instruction.decode word).operation = .call →
            fault.cause ≠ .integerOverflow result := by
  have sound := reached.soundFor
  refine ⟨sound, fun fault after failed => ?_⟩
  obtain ⟨part, failedIn⟩ := step_eq_error failed
  refine ⟨soundFor_of_failsIn sound (running_of_error failed) failedIn, fun pc outOfBounds => ?_,
    fun word result held calls => ne_overflow_of_call sound failed held calls⟩
  obtain ⟨rfl, outside⟩ := outOfBounds_of_step failed outOfBounds
  exact Nat.le_antisymm sound.pc_le outside

/-- A program that adds one to register 1 and then calls an address outside its
code with register 1 as the link. Its third line is malformed. -/
def strayCall : Image :=
  ⟨[some 0x5101, some 0xB1FF, none]⟩

/-- A debugged run of the stray call, after its first step. -/
def strayCallSession : Session :=
  left (step (start strayCall ⟨.enabled, true⟩
    (.start [.line "p", .line "", .line "c"] .calm)))

/-- The stray call faults after it has left its link, and the state is sound. -/
theorem strayCall_leaves_sound :
    (left (step strayCallSession)).state.register 1 = 2 ∧
      (left (step strayCallSession)).state.SoundFor strayCall := by
  have retires : outcome (step (start strayCall ⟨.enabled, true⟩
      (.start [.line "p", .line "", .line "c"] .calm))) = .ok .retired := by
    decide +kernel
  have reached : Reachable strayCall ⟨.enabled, true⟩ strayCallSession :=
    .step (.start _) (eq_ok_of_outcome retires)
  have faults : outcome (step strayCallSession) =
      .error ⟨.invalidJumpTarget 1 255, some (.ofWord 1 0xB1FF)⟩ := by
    decide +kernel
  have sound := (reachable_machine_sound reached).2 _ _ (eq_error_of_outcome faults)
  exact ⟨by decide +kernel, sound.1⟩

end Session

end MiniatureMachine
