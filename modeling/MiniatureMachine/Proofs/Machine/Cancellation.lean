import Mathlib.Logic.Relation
import MiniatureMachine.Proofs.Machine.Transparency

/-!
Contract: a run that the operator interrupts is over.

Owns:
- that no dialogue, no instruction and no step lowers the interrupt flag;
- what a machine can go through, with a host that does as it likes but lower the flag;
- the steps of a machine whose flag is raised, and the step in which it is raised.

A step looks at the flag once, between the question and the fetch. So the flag can be
raised behind the look, at a debugger's prompt or in a read, and then the instruction of
this step still retires. The next look ends all that follows.
-/

namespace MiniatureMachine

open Effects

/-! ## The flag stays up -/

namespace Console

/-- The operator has raised the interrupt flag. -/
def Raised (console : Console) : Prop :=
  console.interrupted = true

private theorem raised_beginRead {console : Console} (raised : console.Raised) :
    console.beginRead.Raised := by
  unfold Raised beginRead at *
  simp [raised]

theorem preserves_write (text : String) : Preserves Raised (write text) := by
  intro before raised
  unfold write
  dsimp only
  split
  · exact raised
  · exact raised

theorem preserves_writeLine (text : String) : Preserves Raised (writeLine text) :=
  (preserves_write text).bind fun _ => preserves_write "\n"

private theorem preserves_readLine : Preserves Raised readLine := by
  intro before raised
  unfold readLine
  split
  · exact raised
  · split
    all_goals exact raised_beginRead raised

private theorem preserves_demand (reply : Reply) : Preserves Raised (demand reply) := by
  cases reply with
  | line text => exact .pure text
  | endOfInput => exact .throw _
  | interrupted => exact .throw _

theorem preserves_promptLine (text : String) : Preserves Raised (promptLine text) :=
  ((preserves_write text).bind fun _ => preserves_readLine).bind preserves_demand

end Console

namespace NumberInput

private theorem preserves_retry : Preserves Console.Raised retry := by
  intro console raised
  have notices := Console.preserves_writeLine retryNotice
  have prompts := Console.preserves_promptLine retryPrompt
  fun_induction retry console with
  | case1 console cause after noticed => exact notices.of_error noticed raised
  | case2 console middle noticed cause after obtained =>
      exact prompts.of_error obtained (notices.of_ok noticed raised)
  | case3 console middle noticed after obtained =>
      exact prompts.of_ok obtained (notices.of_ok noticed raised)
  | case4 console middle noticed line after obtained notQuit word parsed =>
      exact prompts.of_ok obtained (notices.of_ok noticed raised)
  | case5 console middle noticed line after obtained notQuit parsed inductionHypothesis =>
      exact inductionHypothesis (prompts.of_ok obtained (notices.of_ok noticed raised))

private theorem preserves_read : Preserves Console.Raised read := by
  refine Console.preserves_readLine.bind fun reply => ?_
  refine (Console.preserves_demand reply).bind fun line => ?_
  split
  · exact .pure _
  · exact preserves_retry

end NumberInput

namespace Bench

theorem preserves_update (change : State → Except FaultCause State) :
    Preserves (·.console.Raised) (update change) := by
  intro before raised
  unfold update
  split
  · exact raised
  · exact raised

theorem preserves_converse {α : Type} {dialogue : Dialogue α}
    (preserves : Preserves Console.Raised dialogue) :
    Preserves (·.console.Raised) (converse dialogue) := by
  rw [converse_eq_lift]
  exact preserves.lift fun _ => Iff.rfl

end Bench

/-- Only a read can move the flag, and it raises it. -/
theorem Instruction.preserves_execute (instruction : Instruction) (fetchedAt : Nat) :
    Preserves (·.console.Raised) (instruction.execute fetchedAt) := by
  unfold execute
  cases instruction.operation
  case nop => exact .pure ()
  case data => exact .throw _
  case read =>
    exact (Bench.preserves_converse NumberInput.preserves_read).bind fun _ =>
      Bench.preserves_update _
  case write =>
    exact Preserves.get.bind fun bench =>
      Bench.preserves_converse (Console.preserves_writeLine _)
  case call => exact (Bench.preserves_update _).bind fun _ => Bench.preserves_update _
  all_goals exact Bench.preserves_update _

namespace Session

/-- The interrupt flag of the session is up. -/
def Raised (session : Session) : Prop :=
  session.console.Raised

theorem preserves_converse {α : Type} {dialogue : Dialogue α}
    (preserves : Preserves Console.Raised dialogue) : Preserves Raised (converse dialogue) := by
  rw [converse_eq_lift]
  exact preserves.lift fun _ => Iff.rfl

theorem preserves_askAboutDebugging : Preserves Raised askAboutDebugging := by
  refine Preserves.get.bind fun session => ?_
  split
  · refine (preserves_converse (Console.preserves_promptLine _)).bind fun answer => ?_
    exact .modify fun before raised => raised
  · exact .pure _

private theorem preserves_fetch : Preserves Raised fetch := by
  intro before raised
  cases fetched : fetch before with
  | ok entry after =>
      obtain ⟨-, -, -, -, rfl⟩ := fetch_eq_ok fetched
      exact raised
  | error fault after =>
      obtain ⟨rfl, -⟩ := fetch_eq_error fetched
      exact raised

private theorem preserves_respond (state : State) (command : DebugCommand) :
    Preserves Console.Raised (respond state command) := by
  cases command with
  | dump => exact Console.preserves_write _
  | print | help | run => exact Console.preserves_writeLine _
  | «continue» | quit | step => exact .pure _

private theorem preserves_takeCommands : Preserves Raised takeCommands := by
  intro session raised
  have prompts := preserves_converse (Console.preserves_promptLine Debugger.commandPrompt)
  have responds := fun state command => preserves_converse (preserves_respond state command)
  fun_induction takeCommands session with
  | case1 session wants fault after asked => exact prompts.of_error asked raised
  | case2 session wants line asked prompted command fault after shown =>
      exact (responds _ _).of_error shown (prompts.of_ok prompted raised)
  | case3 session wants line asked prompted command shown responded obeyed quits =>
      have stillRaised : shown.Raised :=
        (responds _ _).of_ok responded (prompts.of_ok prompted raised)
      exact stillRaised
  | case4 session wants line asked prompted command shown responded obeyed goesOn
      inductionHypothesis =>
      have stillRaised : shown.Raised :=
        (responds _ _).of_ok responded (prompts.of_ok prompted raised)
      exact inductionHypothesis stillRaised
  | case5 session resting => exact raised

private theorem preserves_trace (pc : Nat) (word : Word) : Preserves Raised (trace pc word) := by
  refine Preserves.get.bind fun session => ?_
  split
  · exact preserves_converse (Console.preserves_writeLine _)
  · exact .pure _

private theorem preserves_perform (pc : Nat) (word : Word) :
    Preserves Raised (perform pc word) := by
  rw [perform_eq_lift]
  exact ((Instruction.decode word).preserves_execute pc).lift fun _ => Iff.rfl

private theorem preserves_conclude : Preserves Raised conclude := by
  refine Preserves.get.bind fun session => ?_
  split
  · split
    · exact (preserves_converse (Console.preserves_writeLine _)).bind fun _ => .pure _
    · exact .pure _
  · exact .pure _

/-- Nothing in a step lowers the interrupt flag. -/
theorem preserves_step : Preserves Raised step := by
  refine Preserves.get.bind fun session => ?_
  split
  · exact .pure _
  · refine preserves_askAboutDebugging.bind fun _ => preserves_fetch.bind fun entry => ?_
    refine preserves_takeCommands.bind fun _ => (preserves_trace _ _).bind fun _ => ?_
    refine (preserves_perform _ _).bind fun _ => ?_
    exact Preserves.bind (.modify fun before raised => raised) fun _ => preserves_conclude

/-! ## Steps of an interrupted machine -/

variable {session asked after later : Session} {fault : Fault}

private theorem pending_of_unanswered
    (unanswered : askAboutDebugging session = .error fault after) :
    session.questionPending = true := by
  cases pending : session.questionPending with
  | true => rfl
  | false =>
      rw [askAboutDebugging_of_answered pending] at unanswered
      cases unanswered

theorem step_of_unanswered (running : session.state.halted = false)
    (unanswered : askAboutDebugging session = .error fault after) :
    step session = .error fault after := by
  rw [step_of_running running]
  apply bind_eq_error_iff.mpr
  left
  exact bind_eq_error_iff.mpr (.inl unanswered)

/-- The flag is looked at behind the question, also when it is raised at the question. -/
theorem step_of_raised_answer (running : session.state.halted = false)
    (answered : askAboutDebugging session = .ok () asked) (raised : asked.Raised) :
    step session = .error (.bare .interrupted) asked := by
  have refused : fetch asked = .error (.bare .interrupted) asked := fetch_of_interrupted raised
  rw [step_of_running running]
  apply bind_eq_error_iff.mpr
  left
  unfold prepare
  rw [bind_of_ok answered]
  exact bind_eq_error_iff.mpr (.inl refused)

/-- A step that faults because of an interrupt, or because a question that is still to be
answered finds no answer. Nothing but the dialogue of the question has taken place. -/
structure Cancels (session : Session) (fault : Fault) (after : Session) : Prop where
  stepped : step session = .error fault after
  state : after.state = session.state
  steps : after.steps = session.steps
  raised : after.Raised
  cause : fault = .bare .interrupted ∨
    session.questionPending = true ∧ askAboutDebugging session = .error fault after

/-- A machine whose flag is up, and that has not halted, is cancelled. -/
theorem cancels_of_raised (raised : session.Raised) (running : session.state.halted = false) :
    ∃ fault after, Cancels session fault after := by
  cases asking : askAboutDebugging session with
  | error fault after =>
      obtain ⟨state, steps⟩ := machine_eq_iff.mp (keeps_askAboutDebugging.of_error asking)
      exact ⟨fault, after, step_of_unanswered running asking, state, steps,
        preserves_askAboutDebugging.of_error asking raised,
        .inr ⟨pending_of_unanswered asking, asking⟩⟩
  | ok _ asked =>
      obtain ⟨state, steps⟩ := machine_eq_iff.mp (keeps_askAboutDebugging.of_ok asking)
      have stillRaised := preserves_askAboutDebugging.of_ok asking raised
      exact ⟨_, asked, step_of_raised_answer running asking stillRaised, state, steps,
        stillRaised, .inl rfl⟩

/-- A step of an interrupted machine leaves the machine as it is. -/
theorem machine_step_of_raised (raised : session.Raised) :
    (left (step session)).machine = session.machine := by
  cases halted : session.state.halted with
  | true => rw [step_of_halted halted, left_ok]
  | false =>
      obtain ⟨fault, after, cancels⟩ := cancels_of_raised raised halted
      rw [cancels.stepped, left_error]
      exact machine_eq_iff.mpr ⟨cancels.state, cancels.steps⟩

/-- A step retires at most one instruction. -/
theorem steps_step_le (session : Session) :
    (left (step session)).steps ≤ session.steps + 1 := by
  cases halted : session.state.halted with
  | true =>
      rw [step_of_halted halted, left_ok]
      exact Nat.le_succ _
  | false =>
      cases stepped : step session with
      | ok outcome after =>
          obtain ⟨_, _, _, -, -, -, -, counted⟩ := execution_of_step halted stepped
          exact Nat.le_of_eq counted
      | error fault after =>
          rw [left_error]
          rcases steps_of_step_error stepped with uncounted | ⟨-, counted⟩
          · exact Nat.le_succ_of_le (Nat.le_of_eq uncounted)
          · exact Nat.le_of_eq counted

/-! ## What comes after -/

/-- A turn in the life of a machine: it steps, with whatever result, or the host replaces
the console. The host shares the flag with the machine and can raise it, but neither of
them has a way to lower it. -/
inductive Turn : Session → Session → Prop
  | step (session : Session) : Turn session (left (step session))
  | host (session : Session) (console : Console) (shared : session.Raised → console.Raised) :
      Turn session { session with console := console }

theorem Turn.raised (turn : Turn session later) (raised : session.Raised) : later.Raised := by
  cases turn with
  | step => exact preserves_step session raised
  | host console shared => exact shared raised

private theorem Turn.machine_eq (turn : Turn session later) (raised : session.Raised) :
    later.machine = session.machine := by
  cases turn with
  | step => exact machine_step_of_raised raised
  | host console shared => rfl

/-- By induction on the turns: the flag stays up, and nothing happens to the machine. -/
theorem raised_and_machine_of_turns (turns : Relation.ReflTransGen Turn session later)
    (raised : session.Raised) : later.Raised ∧ later.machine = session.machine := by
  induction turns with
  | refl => exact ⟨raised, rfl⟩
  | tail _ turn inductionHypothesis =>
      obtain ⟨stillRaised, unchanged⟩ := inductionHypothesis
      exact ⟨turn.raised stillRaised, (turn.machine_eq stillRaised).trans unchanged⟩

/-- A session behind an interrupt, with the state and the count that the machine had then.
As long as it has not halted, each of its steps is cancelled. -/
structure Cancelled (state : State) (steps : Nat) (session : Session) : Prop where
  raised : session.Raised
  state : session.state = state
  steps : session.steps = steps
  cancels : session.state.halted = false → ∃ fault after, Cancels session fault after

/-- An interrupt holds through any later turns of the machine and its host. -/
theorem cancelled_of_turns (raised : session.Raised)
    (turns : Relation.ReflTransGen Turn session later) :
    Cancelled session.state session.steps later := by
  obtain ⟨stillRaised, unchanged⟩ := raised_and_machine_of_turns turns raised
  obtain ⟨state, steps⟩ := machine_eq_iff.mp unchanged
  exact ⟨stillRaised, state, steps, cancels_of_raised stillRaised⟩

/-- A run goes on for at most one more step behind the step in which the flag is raised. -/
theorem run_of_raised_step (raised : (left (step session)).Raised) (fuel : Nat) :
    ∃ finished, run (fuel + 2) session = some finished ∧
      finished.session.machine = (left (step session)).machine := by
  rw [run]
  cases stepped : step session with
  | error fault after => exact ⟨_, rfl, machine_report fault after⟩
  | ok outcome after =>
      rw [stepped, left_ok] at raised
      cases outcome with
      | halted => exact ⟨_, rfl, rfl⟩
      | retired =>
          have unchanged := machine_step_of_raised raised
          dsimp only
          rw [run]
          cases last : step after with
          | error fault stopped =>
              rw [last] at unchanged
              exact ⟨_, rfl, (machine_report fault stopped).trans unchanged⟩
          | ok outcome stopped =>
              rw [last] at unchanged
              cases halted : after.state.halted with
              | false =>
                  obtain ⟨fault, stopped', cancels⟩ := cancels_of_raised raised halted
                  cases last.symm.trans cancels.stepped
              | true =>
                  rw [step_of_halted halted] at last
                  cases last
                  exact ⟨_, rfl, rfl⟩

/-- Cancellation is final, for every session and whatever happens to it afterwards. Once the
flag is up it stays up, the machine keeps its state and its count, and unless it has halted
each of its steps faults: because of the interrupt, or because the question is still to be
answered and finds no answer. If the flag goes up during a step, this holds from the end of
that step on, the step has retired at most one instruction, and a run retires no more. None
is retired if the flag goes up at the question. -/
theorem cancellation_is_final (session : Session) :
    (session.Raised → ∀ later, Relation.ReflTransGen Turn session later →
      Cancelled session.state session.steps later) ∧
    ((left (step session)).Raised →
      (left (step session)).steps ≤ session.steps + 1 ∧
      (∀ later, Relation.ReflTransGen Turn (left (step session)) later →
        Cancelled (left (step session)).state (left (step session)).steps later) ∧
      ∀ fuel, ∃ finished, run (fuel + 2) session = some finished ∧
        finished.session.machine = (left (step session)).machine) ∧
    ∀ asked, session.state.halted = false → askAboutDebugging session = .ok () asked →
      asked.Raised → Cancels session (.bare .interrupted) asked := by
  refine ⟨fun raised later => cancelled_of_turns raised, fun raised => ?_,
    fun asked running answered raised => ?_⟩
  · exact ⟨steps_step_le session, fun later => cancelled_of_turns raised,
      run_of_raised_step raised⟩
  · obtain ⟨state, steps⟩ := machine_eq_iff.mp (keeps_askAboutDebugging.of_ok answered)
    exact ⟨step_of_raised_answer running answered raised, state, steps, raised, .inl rfl⟩

/-- An echo whose operator enters no number, and interrupts while entering one after all. -/
def interruptedEcho : Session :=
  start echo ⟨.disabled, true⟩ (.start [.line "x", .line "7"] ⟨[], [], [1]⟩)

/-- The number is still read. It is not written, even when more input comes. -/
theorem interruptedEcho_cancelled :
    ∃ after, step interruptedEcho = .ok .retired after ∧ after.steps = 1 ∧
      after.state.register 1 = 7 ∧
      ∃ fault last,
        Cancels { after with console := after.console.push (.line "8") } fault last := by
  have retires : outcome (step interruptedEcho) = .ok .retired := by decide +kernel
  have facts : (left (step interruptedEcho)).console.interrupted = true ∧
      (left (step interruptedEcho)).state.halted = false ∧
      (left (step interruptedEcho)).steps = 1 ∧
      (left (step interruptedEcho)).state.register 1 = 7 := by
    decide +kernel
  have stepped := eq_ok_of_outcome retires
  obtain ⟨-, duringStep, -⟩ := cancellation_is_final interruptedEcho
  generalize left (step interruptedEcho) = after at facts stepped duringStep
  obtain ⟨raised, running, counted, holds⟩ := facts
  obtain ⟨-, cancelled, -⟩ := duringStep raised
  have pushed : Turn after { after with console := after.console.push (.line "8") } :=
    .host after _ fun _ => raised
  exact ⟨after, stepped, counted, holds, (cancelled _ (.single pushed)).cancels running⟩

end Session

end MiniatureMachine
