import MiniatureMachine.Proofs.Isa.Nibbles
import MiniatureMachine.Proofs.Machine.Step

/-!
Contract: what a failing step leaves behind.

Owns:
- where the program counter stands after a failure in each part of a step;
- the call whose target is refused, which is the only failure that writes a
  register;
- the machine after a failing step, part by part.

The instruction whose halt notice cannot be written has retired. In every other
failing step no instruction has retired.
-/

namespace MiniatureMachine

open Effects

/-- The program counter after a failure in a part of a step that began at an
address: the fetch moves it, once it succeeds. -/
def StepPart.counter (part : StepPart) (pc : Nat) : Nat :=
  match part with
  | .question | .fetch => pc
  | .commands | .trace | .execution | .haltNotice => pc + 1

namespace Session

/-- The fault of a fetched call whose target is no code address. The index is that
of the link register. -/
def RefusedCall (session : Session) (fault : Fault) (index : Nat) : Prop :=
  ∃ word, session.state.cell? session.state.pc = some (.code (some word)) ∧
    (Instruction.decode word).RefusesCall session.state.pc fault.cause ∧
    (Instruction.decode word).register 0 = index

/-- What is left by a step of a session that fails in a part. -/
structure Leaves (session : Session) (fault : Fault) (after : Session) (part : StepPart) :
    Prop where
  memory : after.state.memory = session.state.memory
  codeSize : after.state.codeSize = session.state.codeSize
  registers : ∀ index, ¬session.RefusedCall fault index →
    after.state.register index = session.state.register index
  /-- A refused call has left the address of the next instruction. -/
  link : ∀ index, session.RefusedCall fault index →
    (after.state.register index).toInt = session.state.pc + 1
  pc : after.state.pc = part.counter session.state.pc
  unretired : part ≠ .haltNotice →
    after.steps = session.steps ∧ after.state.halted = session.state.halted
  /-- A halt that cannot be announced has retired. -/
  retired : part = .haltNotice →
    after.steps = session.steps + 1 ∧ after.state.halted = true ∧
      ∃ failure, fault = .bare (.console failure)

variable {session after : Session} {fault : Fault} {part : StepPart}

/-- Only an execution refuses a jump. -/
theorem FailsIn.not_refusedCall (failed : FailsIn session fault after part)
    (notExecution : part ≠ .execution) (index : Nat) : ¬session.RefusedCall fault index := by
  rintro ⟨word, -, ⟨-, refused⟩, -⟩
  rcases failed.fetch_or_execution (by rw [refused]; exact id) with
    ⟨asked, -, refuses⟩ | isExecution
  · rw [refused] at refuses
    cases refuses
  · exact notExecution isExecution

/-- A failure that moves at most the program counter. -/
theorem Leaves.of_moved (unlinked : ∀ index, ¬session.RefusedCall fault index)
    (notNotice : part ≠ .haltNotice)
    (moved : after.state = { session.state with pc := part.counter session.state.pc })
    (uncounted : after.steps = session.steps) : Leaves session fault after part where
  memory := by rw [moved]
  codeSize := by rw [moved]
  registers := fun index _ => by rw [moved]; rfl
  link := fun index refused => absurd refused (unlinked index)
  pc := by rw [moved]
  unretired := fun _ => ⟨uncounted, by rw [moved]⟩
  retired := fun isNotice => absurd isNotice notNotice

/-- A failing execution leaves the advanced state, except that a refused call has
stored its link. -/
theorem FailsIn.leaves_of_execution (failed : FailsIn session fault after .execution) :
    Leaves session fault after .execution := by
  obtain ⟨word, -, held, fails, uncounted⟩ := failed.machine_of_execution
  have same : ∀ {index}, session.RefusedCall fault index →
      (Instruction.decode word).RefusesCall session.state.pc fault.cause ∧
        (Instruction.decode word).register 0 = index := by
    rintro index ⟨word', held', refused⟩
    rw [held] at held'
    cases held'
    exact refused
  rcases fails.unchanged_or_linked with ⟨unrefused, unchanged⟩ | ⟨refused, link, links, linked⟩
  · exact .of_moved (fun index refused => unrefused (same refused).1) (by decide) unchanged
      uncounted
  · refine ⟨by rw [linked]; rfl, by rw [linked]; rfl, fun index unrefused => ?_,
      fun index isLink => ?_, by rw [linked]; rfl, fun _ => ⟨uncounted, by rw [linked]; rfl⟩,
      fun isNotice => nomatch isNotice⟩
    · have other : index ≠ (Instruction.decode word).register 0 :=
        fun isLink => unrefused ⟨word, held, refused, isLink.symm⟩
      rw [linked, State.register_setRegister_other link other]
      rfl
    · obtain ⟨-, rfl⟩ := same isLink
      rw [linked, State.register_setRegister_same link
        (Instruction.register_lt _ _) (Instruction.register_ne_zero_of_call refused.1), links]
      rfl

/-- A halt whose notice fails has changed nothing but the counter and the flag. -/
theorem FailsIn.leaves_of_haltNotice (running : session.state.halted = false)
    (failed : FailsIn session fault after .haltNotice) :
    Leaves session fault after .haltNotice := by
  have unrefused := failed.not_refusedCall (by decide)
  obtain ⟨word, state, -, -, changes, halted, unwritten, left, counted⟩ :=
    failed.machine_of_haltNotice
  obtain rfl := changes.eq_of_halted running halted
  exact
    { memory := by rw [left]; rfl
      codeSize := by rw [left]; rfl
      registers := fun index _ => by rw [left, State.register_clearRegisterZero]; rfl
      link := fun index refused => absurd refused (unrefused index)
      pc := by rw [left]; rfl
      unretired := fun notNotice => absurd rfl notNotice
      retired := fun _ => ⟨counted, by rw [left]; rfl, unwritten⟩ }

/-- A step that faults does so in one of its parts, and leaves what a failure in
this part leaves: the memory, the registers but for the link of a refused call, the
count of instructions but for a halt that could not be announced. -/
theorem step_error_leaves (failed : step session = .error fault after) :
    ∃ part, FailsIn session fault after part ∧ Leaves session fault after part := by
  obtain ⟨part, failedIn⟩ := step_eq_error failed
  refine ⟨part, failedIn, ?_⟩
  have unlinked := failedIn.not_refusedCall
  cases part with
  | question =>
      obtain ⟨unmoved, uncounted⟩ := failedIn.machine_of_question
      exact .of_moved (unlinked (by decide)) (by decide) unmoved uncounted
  | fetch =>
      obtain ⟨unmoved, uncounted⟩ := failedIn.machine_of_fetch
      exact .of_moved (unlinked (by decide)) (by decide) unmoved uncounted
  | commands =>
      obtain ⟨-, moved, uncounted⟩ := failedIn.machine_of_commands
      exact .of_moved (unlinked (by decide)) (by decide) moved uncounted
  | trace =>
      obtain ⟨-, moved, uncounted⟩ := failedIn.machine_of_trace
      exact .of_moved (unlinked (by decide)) (by decide) moved uncounted
  | execution => exact failedIn.leaves_of_execution
  | haltNotice => exact failedIn.leaves_of_haltNotice (running_of_error failed)

/-- A traced halt on a console that takes the prompt and the trace, and then no
more. -/
def unannouncedHalt : Session :=
  start ⟨[some 0x0000]⟩ ⟨.enabled, false⟩ (.start [.line "c"] ⟨[], [(3, "full")], []⟩)

/-- The halt that cannot be announced faults, and has been counted. -/
theorem unannouncedHalt_leaves :
    (left (step unannouncedHalt)).steps = 1 ∧
      ∃ part, FailsIn unannouncedHalt (.bare (.console "full")) (left (step unannouncedHalt)) part ∧
        Leaves unannouncedHalt (.bare (.console "full")) (left (step unannouncedHalt)) part := by
  have faults : outcome (step unannouncedHalt) = .error (.bare (.console "full")) := by
    decide +kernel
  exact ⟨by decide +kernel, step_error_leaves (eq_error_of_outcome faults)⟩

end Session

end MiniatureMachine
