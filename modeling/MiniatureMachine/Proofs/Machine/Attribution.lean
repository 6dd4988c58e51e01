import MiniatureMachine.Proofs.Machine.FaultMessage
import MiniatureMachine.Proofs.Machine.Fetching
import MiniatureMachine.Proofs.Machine.PrintedFault
import MiniatureMachine.Proofs.Machine.Transparency
import MiniatureMachine.Proofs.Machine.UnreadInput

/-!
Contract: the report of a fault names the instruction that caused it.

Owns:
- the instructions in which a dialogue can fail;
- the fault, the last step and the output of a run that does not halt;
- a console that reports an address of its own.

The program counter has moved when an instruction fails, and a refused call has even
written its link. The context is made from the address and the word of the fetch, and these
are what the invariant ties to the image. The words of a failing console are repeated as
they are.
-/

namespace MiniatureMachine

open Effects

/-! ## Causes of an execution -/

namespace FaultCause

/-- The causes that an instruction has without the operator and the console. -/
def IsFromExecution : FaultCause → Prop
  | .invalidJumpTarget _ _ | .invalidMemoryTarget _ _ _ | .divisionByZero _ | .integerOverflow _
  | .invalidOpcode _ => True
  | _ => False

variable {cause : FaultCause}

private theorem IsFromDialogue.not_isFromExecution (fromDialogue : cause.IsFromDialogue) :
    ¬cause.IsFromExecution := by
  cases cause with
  | interrupted | endOfInput | aborted | console => exact id
  | _ => exact absurd fromDialogue id

theorem IsFromDialogue.not_isFromFetch (fromDialogue : cause.IsFromDialogue) :
    ¬cause.IsFromFetch := by
  cases cause with
  | interrupted | endOfInput | aborted | console => exact id
  | _ => exact absurd fromDialogue id

private theorem isFromExecution_of_instructionAddress {address : Nat}
    (carries : cause.instructionAddress? = some address) : cause.IsFromExecution := by
  cases cause with
  | invalidJumpTarget | invalidMemoryTarget | divisionByZero | invalidOpcode => trivial
  | _ => cases carries

private theorem exists_of_console (isConsole : cause.code = .console) :
    ∃ failure, cause = .console failure := by
  cases cause with
  | console failure => exact ⟨failure, rfl⟩
  | _ => cases isConsole

end FaultCause

namespace Instruction

variable {instruction : Instruction} {fetchedAt : Nat} {before after : State}
  {cause : FaultCause}

/-- A failing execution carries the address of the fetch, or none. -/
theorem Fails.instructionAddress (fails : instruction.Fails fetchedAt before cause after)
    {address : Nat} (carries : cause.instructionAddress? = some address) :
    address = fetchedAt := by
  cases fails with
  | dialogue notCall fromDialogue =>
      exact absurd (FaultCause.isFromExecution_of_instructionAddress carries)
        fromDialogue.not_isFromExecution
  | overflow => cases carries
  | division | memory | jump | call | opcode => exact (Option.some.inj carries).symm

/-- Only a read and a write can fail because of the operator or the console, and a write
because of the console only. -/
theorem read_or_write_of_execute {bench bench' : Bench}
    (failed : instruction.execute fetchedAt bench = .error cause bench')
    (fromDialogue : cause.IsFromDialogue) :
    instruction.operation = .read ∨
      instruction.operation = .write ∧ ∃ failure, cause = .console failure := by
  cases operation : instruction.operation <;> simp only [execute, operation] at failed
  case read => exact .inl rfl
  case write =>
    rcases bind_eq_error_iff.mp failed with ⟨⟨⟩⟩ | ⟨seen, middle, looked, inDialogue⟩
    refine .inr ⟨rfl, ?_⟩
    unfold Bench.converse at inDialogue
    split at inDialogue
    · cases inDialogue
    · rename_i unwritten
      cases inDialogue
      exact Console.writeLine_eq_error unwritten
  all_goals refine absurd fromDialogue ?_
  case nop => cases failed
  case data =>
    cases failed
    exact id
  case call =>
    rcases bind_eq_error_iff.mp failed with inLink | ⟨_, middle, -, inJump⟩
    · exact State.not_isFromDialogue_of_assign (Bench.update_eq_error_iff.mp inLink).1
    · exact State.not_isFromDialogue_of_jump (Bench.update_eq_error_iff.mp inJump).1
  -- The other operations are plain updates of the state.
  all_goals obtain ⟨refused, -⟩ := Bench.update_eq_error_iff.mp failed
  case halt => cases refused
  case jumpi | jump => exact State.not_isFromDialogue_of_jump refused
  case loadn | addn | mov | neg => exact State.not_isFromDialogue_of_assign refused
  case load | loadi => exact State.not_isFromDialogue_of_load refused
  case store | storei => exact State.not_isFromDialogue_of_store refused
  case add | sub | mul | div | mod => exact State.not_isFromDialogue_of_compute refused
  case jeqz | jnez | jgtz | jltz => exact State.not_isFromDialogue_of_branch refused

end Instruction

/-! ## The last step -/

namespace Session

variable {image : Image} {options : SessionOptions} {session after : Session} {fault : Fault}
  {part : StepPart}

/-- Only an execution gives its fault a context. -/
theorem FailsIn.context_iff (failed : FailsIn session fault after part) :
    fault.context?.isSome = true ↔ part = .execution := by
  by_cases isExecution : part = .execution
  · subst isExecution
    obtain - | - | - | - | ⟨prepared, failed⟩ := failed
    obtain ⟨cause, bench, -, rfl, -⟩ := perform_eq_error failed
    exact iff_of_true rfl rfl
  · have bare : fault.context? = none := by
      by_cases isFetch : part = .fetch
      · subst isFetch
        obtain - | ⟨answered, refused⟩ := failed
        obtain ⟨-, cause, rfl, -⟩ := fetch_eq_error refused
        rfl
      · exact (failed.isFromDialogue isFetch isExecution).1
    rw [bare]
    exact iff_of_false (by decide) isExecution

private theorem FailsIn.execution_of_cause (failed : FailsIn session fault after part)
    (fromExecution : fault.cause.IsFromExecution) : part = .execution := by
  have ofMachine : ¬fault.cause.IsFromDialogue :=
    fun fromDialogue => fromDialogue.not_isFromExecution fromExecution
  rcases failed.fetch_or_execution ofMachine with ⟨asked, -, refuses⟩ | isExecution
  · generalize fault.cause = cause at refuses fromExecution
    cases refuses <;> exact absurd fromExecution id
  · exact isExecution

/-- A fetch that is refused leaves the program counter at the address that it reports. -/
theorem FailsIn.fetch_of_cause (failed : FailsIn session fault after part)
    (fromFetch : fault.cause.IsFromFetch) :
    part = .fetch ∧ fault.cause.fetchAddress? = some after.state.pc := by
  by_cases isExecution : part = .execution
  · subst isExecution
    obtain ⟨word, -, -, fails, -⟩ := failed.machine_of_execution
    exact absurd fromFetch fails.not_isFromFetch
  · by_cases isFetch : part = .fetch
    · subst isFetch
      obtain - | ⟨answered, refused⟩ := failed
      obtain ⟨rfl, cause, rfl, refuses⟩ := fetch_eq_error refused
      cases refuses with
      | interrupted => exact absurd fromFetch id
      | outOfBounds | malformed => exact ⟨rfl, rfl⟩
    · have fromDialogue := (failed.isFromDialogue isFetch isExecution).2
      exact absurd fromFetch fromDialogue.not_isFromFetch

/-- The context of a failed execution is made from the word of the image behind which the
program counter stands. -/
theorem FailsIn.context_of_execution (sound : session.state.SoundFor image)
    (failed : FailsIn session fault after .execution) :
    ∃ word, fault.context? = some (.ofWord session.state.pc word) ∧
      image.words[session.state.pc]? = some (some word) ∧
      after.state.pc = session.state.pc + 1 ∧
      (∀ address, fault.cause.instructionAddress? = some address → address = session.state.pc) ∧
      (fault.cause.IsFromDialogue →
        (Instruction.decode word).operation = .read ∨
          (Instruction.decode word).operation = .write) := by
  obtain - | - | - | - | ⟨prepared, failed⟩ := failed
  obtain ⟨inCode, held, address, readyState, -⟩ := prepare_eq_ok prepared
  have given := sound.words_of_cell inCode held
  obtain ⟨cause, bench, execution, rfl, rfl⟩ := perform_eq_error failed
  have fails := Instruction.fails_of_execute execution
  rw [readyState, address] at fails
  refine ⟨_, by rw [address], given, ?_, fun _ => fails.instructionAddress,
    fun fromDialogue => ?_⟩
  · rcases fails.unchanged_or_linked with ⟨-, unchanged⟩ | ⟨-, link, -, linked⟩
    · show bench.state.pc = _
      rw [unchanged]
      rfl
    · show bench.state.pc = _
      rw [linked]
      rfl
  · exact (Instruction.read_or_write_of_execute execution fromDialogue).imp_right And.left

/-! ## Attribution -/

/-- What the report of a fault tells about the part of the step in which it arose. -/
structure Attribution (image : Image) (fault : Fault) (part : StepPart) (finalPc : Nat) :
    Prop where
  context_iff : fault.report.context?.isSome = true ↔ part = .execution
  ofExecution : fault.cause.IsFromExecution → part = .execution
  ofFetch : fault.cause.IsFromFetch → part = .fetch ∧
    ∀ address, Text.Names "memory location " address fault.report.message ↔ address = finalPc
  context : ∀ context ∈ fault.report.context?, context.pc + 1 = finalPc ∧
    ∃ word, image.words[context.pc]? = some (some word) ∧ context.Describes context.pc word ∧
      (fault.cause.IsFromDialogue →
        (Instruction.decode word).operation = .read ∨
          (Instruction.decode word).operation = .write)
  /-- The text of a console failure comes from the console and can have any words in it. -/
  address : ∀ address, Text.Names "at pc " address fault.report.message →
    (∃ context ∈ fault.report.context?, context.pc = address) ∨
      ∃ failure, fault.cause = .console failure ∧ Text.Names "at pc " address failure

/-- What each part of a step reports when it fails. Only the failure of an execution has an
address to name, and it is that of the fetch. -/
theorem FailsIn.attribution (sound : session.state.SoundFor image)
    (failed : FailsIn session fault after part) :
    Attribution image fault part after.state.pc where
  context_iff := failed.context_iff
  ofExecution := failed.execution_of_cause
  ofFetch := by
    intro fromFetch
    obtain ⟨isFetch, carries⟩ := failed.fetch_of_cause fromFetch
    exact ⟨isFetch, FaultCause.names_location_iff carries⟩
  context := by
    intro context present
    have isExecution := failed.context_iff.mp (Option.isSome_of_mem present)
    subst isExecution
    obtain ⟨word, made, given, moved, -, dialogue⟩ := failed.context_of_execution sound
    cases (show fault.context? = some context from present).symm.trans made
    exact ⟨moved.symm, word, given, FaultContext.describes_ofWord .., dialogue⟩
  address := by
    intro address named
    by_cases isConsole : fault.cause.code = .console
    · obtain ⟨failure, cause⟩ := FaultCause.exists_of_console isConsole
      have named' : Text.Names "at pc " address fault.cause.message := named
      rw [cause] at named'
      exact .inr ⟨failure, cause, FaultCause.names_pc_of_console named'⟩
    · have carries := (FaultCause.names_pc_iff isConsole address).mp named
      have fromExecution := FaultCause.isFromExecution_of_instructionAddress carries
      have isExecution := failed.execution_of_cause fromExecution
      subst isExecution
      obtain ⟨word, made, -, -, sameAddress, -⟩ := failed.context_of_execution sound
      exact .inl ⟨_, made, (sameAddress address carries).symm⟩

/-! ## Runs -/

private theorem output_report (fault : Fault)
    (text : after.console.schedule.failingWrites.lookup after.console.writes = none)
    (newline : after.console.schedule.failingWrites.lookup (after.console.writes + 1) = none) :
    (report fault after).console.output = after.console.output ++ fault.report.text ++ "\n" ∧
      (report fault after).console.writes = after.console.writes + 2 := by
  have written : Console.writeLine fault.report.text after.console =
      .ok () { after.console with
        writes := after.console.writes + 2
        output := after.console.output ++ fault.report.text ++ "\n" } := by
    simp only [Console.writeLine, Console.write, bind, EStateM.bind, text, newline]
  unfold report
  rw [written]
  exact ⟨rfl, rfl⟩

/-- Every report of a fault names the instruction that caused it. In a run that ends with a
fault, the fault arose in a part of the last step, and what its report says fits this part,
the image and the final program counter. Printed, it has the lines of its context, if there is
one, its message, and the halting notice unless the operator ended the run. If the two writes
of the report do not fail, the output is what the steps have written and behind it the report,
once. -/
theorem report_names_instruction {fuel : Nat} {finished : Session}
    (reached : Reachable image options session)
    (ended : run fuel session = some ⟨.faulted fault, finished⟩) :
    ∃ last after part, Reachable image options last ∧
      Session.advance fuel session = .error fault after ∧ step last = .error fault after ∧
      FailsIn last fault after part ∧ finished.machine = after.machine ∧
      Attribution image fault part finished.state.pc ∧
      fault.report.text ++ "\n" = String.join (fault.report.lines.map (· ++ "\n")) ∧
      (after.console.schedule.failingWrites.lookup after.console.writes = none →
        after.console.schedule.failingWrites.lookup (after.console.writes + 1) = none →
        finished.console.output = after.console.output ++ fault.report.text ++ "\n" ∧
          finished.console.writes = after.console.writes + 2) := by
  rw [run_eq] at ended
  rcases advanced : Session.advance fuel session with ⟨_ | _ | _, after⟩ | ⟨fault', after⟩ <;>
    rw [advanced] at ended <;> cases ended
  obtain ⟨last, lastReached, failed⟩ := reached.advance_error advanced
  obtain ⟨part, failedIn⟩ := step_eq_error failed
  have same := machine_report fault after
  have attributed := failedIn.attribution lastReached.soundFor
  rw [← (machine_eq_iff.mp same).1] at attributed
  exact ⟨last, after, part, lastReached, rfl, failed, failedIn, same, attributed,
    fault.report.text_append_newline, output_report fault⟩

/-- A run of the stray call. The call has written its link when it is refused. -/
def strayCallRun : Option Finished :=
  run 2 (start strayCall ⟨.disabled, true⟩ (.start [] .calm))

theorem strayCallRun_names_call :
    ∃ finished, strayCallRun =
        some ⟨.faulted ⟨.invalidJumpTarget 1 255, some (.ofWord 1 0xB1FF)⟩, finished⟩ ∧
      finished.state.pc = 2 ∧
      Attribution strayCall ⟨.invalidJumpTarget 1 255, some (.ofWord 1 0xB1FF)⟩ .execution
        finished.state.pc := by
  have ending : strayCallRun.map Finished.ending =
      some (.faulted ⟨.invalidJumpTarget 1 255, some (.ofWord 1 0xB1FF)⟩) := by
    decide +kernel
  obtain ⟨⟨ending, finished⟩, ended, rfl⟩ := Option.map_eq_some_iff.mp ending
  obtain ⟨last, after, part, -, -, -, -, -, attributed, -⟩ :=
    report_names_instruction (.start _) ended
  obtain rfl := attributed.ofExecution trivial
  exact ⟨finished, ended, (attributed.context _ rfl).1.symm, attributed⟩

/-- The run of a single write, whose console fails with an address in its words. -/
def lostWriteRun : Option Finished :=
  run 1 (start (.ofWords [0x0102]) ⟨.disabled, true⟩
    (.start [] ⟨[], [(0, "lost the line at pc 9")], []⟩))

/-- The report repeats these words. They name an address where there is no instruction. -/
theorem lostWriteRun_names_elsewhere :
    ∃ fault finished, lostWriteRun = some ⟨.faulted fault, finished⟩ ∧
      fault.cause = .console "lost the line at pc 9" ∧
      fault.report.context?.map FaultContext.pc = some 0 ∧
      Text.Names "at pc " 9 fault.report.message ∧
      ¬∀ address, Text.Names "at pc " address fault.report.message →
        ∃ context ∈ fault.report.context?, context.pc = address := by
  have ending : lostWriteRun.map Finished.ending =
      some (.faulted ⟨.console "lost the line at pc 9", some (.ofWord 0 0x0102)⟩) := by
    decide +kernel
  obtain ⟨⟨ending, finished⟩, ended, rfl⟩ := Option.map_eq_some_iff.mp ending
  have named : Text.Names "at pc " 9 (FaultCause.console "lost the line at pc 9").message :=
    ⟨"Console error: lost the line ".toList, [], by decide +kernel, nofun⟩
  refine ⟨_, finished, ended, rfl, rfl, named, fun everywhere => ?_⟩
  obtain ⟨context, ⟨⟩, same⟩ := everywhere 9 named
  cases same

end Session

end MiniatureMachine
