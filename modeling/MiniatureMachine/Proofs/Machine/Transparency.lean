import MiniatureMachine.Machine.Run
import MiniatureMachine.Proofs.Machine.Conversation
import MiniatureMachine.Proofs.Machine.Unattended

/-!
Contract: the debugger changes nothing that the program does.

Owns:
- the record of a step: what passed at the debugger's prompts, what the instruction
  took and wrote, and the notice of a halt;
- runs in which no debugger prompt ends the run;
- a run without the debugger, on the input that the instructions took: it ends as the
  debugged run does, and its instructions take and write the same.

The two runs go in lock step. The debugged one has more on its script: the lines that
are answered to the prompts. So the scripts are never compared as a whole, only the
entries that the instructions take.
-/

namespace MiniatureMachine

open Effects

/-! ## Records -/

namespace Exchange

theorem andThen_nothing (exchange : Exchange) : exchange.andThen nothing = exchange := by
  unfold andThen nothing
  rw [List.append_nil, String.append_empty]

private theorem andThen_assoc (first second third : Exchange) :
    (first.andThen second).andThen third = first.andThen (second.andThen third) := by
  unfold andThen
  rw [List.append_assoc, String.append_assoc]

def concat : List Exchange → Exchange
  | [] => nothing
  | first :: later => first.andThen (concat later)

end Exchange

structure StepRecord where
  /-- At the debugger's prompts, and in the trace. -/
  debugging : Exchange
  /-- In the execution of the instruction. -/
  program : Exchange
  /-- The notice of a halt, after the execution. -/
  notice : String
deriving DecidableEq, Repr

namespace StepRecord

/-- All that passes in the step, in its order. -/
def whole (record : StepRecord) : Exchange :=
  (record.debugging.andThen record.program).andThen ⟨[], record.notice⟩

/-- What is left of the record when nobody debugs. -/
def undebugged (record : StepRecord) : StepRecord :=
  ⟨.nothing, record.program, ""⟩

end StepRecord

def Ending.report : Ending → Exchange
  | .halted => .nothing
  | .faulted fault => ⟨[], fault.report.text ++ "\n"⟩

namespace Session

/-- The record of the next step. -/
def record (session : Session) : StepRecord :=
  match prepare session with
  | .error _ stopped => ⟨session.console.since stopped.console, .nothing, ""⟩
  | .ok entry ready =>
      let executed := left (perform entry.1 entry.2 ready)
      { debugging := session.console.since ready.console
        program := ready.console.since executed.console
        notice := (executed.console.since (left (step session)).console).text }

def records : (fuel : Nat) → Session → List StepRecord
  | 0, _ => []
  | fuel + 1, session =>
      session.record ::
        match step session with
        | .ok .retired after => records fuel after
        | .ok .halted _ | .error _ _ => []

def conversation (fuel : Nat) (session : Session) : Exchange :=
  .concat ((records fuel session).map StepRecord.whole)

/-- What the instructions of a run take and write. -/
def programExchange (fuel : Nat) (session : Session) : Exchange :=
  .concat ((records fuel session).map StepRecord.program)

/-! ## Prompts that end a run -/

/-- A debugger prompt of the next step meets a quit, the end of the input or an
interrupt. -/
def StopsAtPrompt (session : Session) : Prop :=
  ∃ fault after, FailsIn session fault after .commands ∧
    fault.cause.code.isOperatorInitiated = true

/-- No debugger prompt ends the run. -/
def Undisturbed : (fuel : Nat) → Session → Prop
  | 0, _ => True
  | fuel + 1, session =>
      ¬session.StopsAtPrompt ∧ ∀ after, step session = .ok .retired after → Undisturbed fuel after

/-! ## One step -/

/-- A session that runs on a calm console and has no question left. -/
structure Underway (session : Session) : Prop where
  calm : session.console.Calm
  answered : session.questionPending = false
  running : session.state.halted = false

variable {session plain debugged after ready : Session} {fault : Fault} {entry : Nat × Word}

/-- On a calm console, what comes before the execution can fail only in the fetch,
unless a prompt ends the run. -/
theorem Underway.fetch_of_prepare_error (underway : session.Underway)
    (undisturbed : ¬session.StopsAtPrompt) (failed : prepare session = .error fault after) :
    fetch session = .error fault after := by
  have answered := askAboutDebugging_of_answered underway.answered
  unfold prepare at failed
  rw [bind_of_ok answered] at failed
  rcases bind_eq_error_iff.mp failed with refused | ⟨entry, fetched, fetching, failed⟩
  · exact refused
  · have calm := (replays_fetch session).exchanges.of_ok fetching underway.calm
    obtain ⟨exchange, undergoes⟩ := calm
    rcases bind_eq_error_iff.mp failed with uncommanded | ⟨_, obeyed, commanded, failed⟩
    · exact absurd ⟨fault, after, .commands answered fetching uncommanded,
        takeCommands_error_of_calm undergoes.calm uncommanded⟩ undisturbed
    · obtain ⟨exchange', undergoes'⟩ :=
        (replays_takeCommands fetched).exchanges.of_ok commanded undergoes.calm
      obtain ⟨traced, tracing⟩ := trace_of_calm undergoes'.calm entry.1 entry.2
      rw [bind_of_ok tracing] at failed
      cases failed

/-- What comes before the execution fetches, and otherwise converses. -/
theorem Underway.fetch_of_prepare_ok (underway : session.Underway)
    (prepared : prepare session = .ok entry ready) :
    fetch session = .ok entry { session with state := session.state.advance } ∧
      ready.questionPending = false := by
  have answered := askAboutDebugging_of_answered underway.answered
  unfold prepare at prepared
  rw [bind_of_ok answered] at prepared
  obtain ⟨entry, fetched, fetching, prepared⟩ := bind_eq_ok_iff.mp prepared
  obtain ⟨_, obeyed, commanded, prepared⟩ := bind_eq_ok_iff.mp prepared
  obtain ⟨_, traced, tracing, ⟨⟩⟩ := bind_eq_ok_iff.mp prepared
  obtain ⟨-, -, -, -, rfl⟩ := fetch_eq_ok fetching
  have traces : Keeps Session.questionPending (trace entry.1 entry.2) :=
    keeps_trace (fun _ _ => rfl) _ _
  have takes : Keeps Session.questionPending takeCommands :=
    keeps_takeCommands fun _ _ _ => rfl
  refine ⟨fetching, ?_⟩
  rw [traces.of_ok tracing, takes.of_ok commanded]
  exact underway.answered

/-- All that passes in a step on a calm console is in its record. -/
theorem Underway.undergoes_record (underway : session.Underway) :
    session.console.Undergoes session.record.whole (left (step session)).console := by
  have preparing := (replays_prepare session).exchanges
  unfold record
  rw [step_of_running underway.running]
  cases prepared : prepare session with
  | error fault stopped =>
      obtain ⟨debugging, undergoes⟩ := preparing.of_error prepared underway.calm
      rw [bind_eq_error_iff.mpr (.inl prepared), left_error]
      dsimp only
      rw [undergoes.since_eq, StepRecord.whole, Exchange.andThen_nothing]
      exact (Exchange.andThen_nothing debugging).symm ▸ undergoes
  | ok entry ready =>
      obtain ⟨debugging, undergoes⟩ := preparing.of_ok prepared underway.calm
      have performing := (replays_perform entry.1 entry.2 ready).exchanges
      rw [bind_of_ok prepared]
      dsimp only
      cases executed : perform entry.1 entry.2 ready with
      | error fault stopped =>
          obtain ⟨program, undergoes'⟩ := performing.of_error executed undergoes.calm
          rw [bind_eq_error_iff.mpr (.inl executed)]
          simp only [left_error]
          rw [undergoes.since_eq, undergoes'.since_eq,
            undergoes'.calm.undergoes_nothing.since_eq]
          exact (undergoes.trans undergoes').trans undergoes'.calm.undergoes_nothing
      | ok _ performed =>
          obtain ⟨program, undergoes'⟩ := performing.of_ok executed undergoes.calm
          have calm : (retire performed).console.Calm := undergoes'.calm
          obtain ⟨after, concluded, noticed⟩ := conclude_of_calm calm
          have noticed : performed.console.Undergoes _ after.console := noticed
          have ends : (do modify retire; conclude : Phase StepOutcome) performed =
              .ok (retire performed).state.retirement after := concluded
          rw [bind_of_ok executed, ends]
          simp only [left_ok]
          rw [undergoes.since_eq, undergoes'.since_eq, noticed.since_eq]
          exact (undergoes.trans undergoes').trans noticed

theorem Underway.of_step (underway : session.Underway)
    (stepped : step session = .ok .retired after) : after.Underway := by
  have undergoes := underway.undergoes_record
  rw [stepped, left_ok] at undergoes
  obtain ⟨entry, ready, performed, prepared, executed, concluded⟩ :=
    step_eq_ok underway.running stepped
  have ignores : IgnoresConsole fun session => (session.state, session.questionPending) :=
    fun _ _ => rfl
  obtain ⟨sameState, sameQuestion⟩ := Prod.mk.inj ((keeps_conclude ignores).of_ok concluded)
  obtain ⟨-, readyAnswered⟩ := underway.fetch_of_prepare_ok prepared
  have answered : performed.questionPending = false :=
    ((keeps_perform (fun _ _ _ => rfl) _ _).of_ok executed).trans readyAnswered
  have retires := conclude_eq_ok concluded
  refine ⟨undergoes.calm, ?_, ?_⟩
  · exact sameQuestion.trans answered
  · rw [sameState]
    unfold State.retirement at retires
    split at retires
    · cases retires
    · rename_i running
      exact Bool.not_eq_true _ ▸ running

/-! ## Two sessions in lock step -/

/-- An unattended session at the same point of the program as another session. -/
structure Alike (plain debugged : Session) : Prop where
  state : plain.state = debugged.state
  steps : plain.steps = debugged.steps
  unattended : plain.Unattended
  calm : plain.console.Calm

private theorem Unattended.record_of_fetch_error (unattended : session.Unattended)
    (calm : session.console.Calm) (refused : fetch session = .error fault session) :
    session.record = ⟨.nothing, .nothing, ""⟩ := by
  unfold record
  rw [unattended.prepare_eq.trans refused]
  dsimp only
  rw [calm.undergoes_nothing.since_eq]

private theorem Unattended.record_of_fetch_ok {exchange : Exchange}
    (unattended : session.Unattended)
    (calm : session.console.Calm) (fetching : fetch session = .ok entry after)
    (unmoved : after.console = session.console)
    (undergoes : after.console.Undergoes exchange (left (perform entry.1 entry.2 after)).console)
    (unannounced : (left (step session)).console =
      (left (perform entry.1 entry.2 after)).console) :
    session.record = ⟨.nothing, exchange, ""⟩ := by
  unfold record
  rw [unattended.prepare_eq.trans fetching]
  dsimp only
  rw [unannounced, undergoes.since_eq, undergoes.calm.undergoes_nothing.since_eq, unmoved,
    calm.undergoes_nothing.since_eq]
  rfl

/-- What the lock step keeps. The unattended session takes the entries that the
instruction of the other session takes. -/
structure StepsAlike (plain debugged : Session) : Prop where
  outcome : outcome (step plain) = Effects.outcome (step debugged)
  alike : Alike (left (step plain)) (left (step debugged))
  undergoes : plain.console.Undergoes debugged.record.program (left (step plain)).console
  record : plain.record = debugged.record.undebugged

/-- Both steps have a result, the same in kind, and what passed in them is known. -/
theorem StepsAlike.of_results {result result' : EStateM.Result Fault Session StepOutcome}
    {program : Exchange} (stepped : step debugged = result) (stepped' : step plain = result')
    (sameOutcome : Effects.outcome result' = Effects.outcome result)
    (alike : Alike (left result') (left result))
    (isProgram : debugged.record.program = program)
    (undergoes : plain.console.Undergoes program (left result').console)
    (isRecord : plain.record = ⟨.nothing, program, ""⟩) : StepsAlike plain debugged := by
  subst stepped stepped' isProgram
  exact ⟨sameOutcome, alike, undergoes, isRecord⟩

/-- Both sessions are refused the same fetch. -/
theorem Alike.stepsAlike_of_fetch_error (alike : Alike plain debugged)
    (underway : debugged.Underway) (failed : prepare debugged = .error fault debugged)
    (refused : fetch debugged = .error fault debugged) : StepsAlike plain debugged := by
  have running : plain.state.halted = false := alike.state ▸ underway.running
  obtain ⟨sameOutcome, sameLeft⟩ := fetch_congr alike.state
    (alike.calm.uninterrupted.trans underway.calm.uninterrupted.symm)
  rw [refused] at sameOutcome sameLeft
  have refused' : fetch plain = .error fault plain := by
    have unmoved : { plain with state := debugged.state } = plain := by rw [← alike.state]
    rw [eq_error_of_outcome sameOutcome, sameLeft, left_error, unmoved]
  have stepped : step debugged = .error fault debugged := by
    rw [step_of_running underway.running]
    exact bind_eq_error_iff.mpr (.inl failed)
  have isProgram : debugged.record.program = .nothing := by
    unfold record
    rw [failed]
  exact .of_results stepped (alike.unattended.step_of_fetch_error running refused') rfl alike
    isProgram alike.calm.undergoes_nothing
    (alike.unattended.record_of_fetch_error alike.calm refused')

private theorem Alike.fetch_eq (alike : Alike plain debugged) (underway : debugged.Underway)
    (prepared : prepare debugged = .ok entry ready) :
    fetch plain = .ok entry { plain with state := debugged.state.advance } := by
  obtain ⟨fetching, -⟩ := underway.fetch_of_prepare_ok prepared
  obtain ⟨sameOutcome, sameLeft⟩ := fetch_congr alike.state
    (alike.calm.uninterrupted.trans underway.calm.uninterrupted.symm)
  rw [fetching] at sameOutcome sameLeft
  exact (eq_ok_of_outcome sameOutcome).trans (congrArg _ sameLeft)

/-- Both sessions execute the same instruction, in the same state. -/
theorem Alike.stepsAlike_of_fetch_ok {rest : List Entry} (alike : Alike plain debugged)
    (underway : debugged.Underway) (prepared : prepare debugged = .ok entry ready)
    (script : plain.console.script = debugged.record.program.entries ++ rest)
    (goesOn : (∃ value, outcome (step debugged) = .ok value) ∨
      rest = (left (step debugged)).console.script) :
    StepsAlike plain debugged := by
  have running : plain.state.halted = false := alike.state ▸ underway.running
  have fetching := alike.fetch_eq underway prepared
  have stays := (alike.unattended.of_fetch fetching).of_perform entry.1 entry.2
  obtain ⟨-, -, -, readyState, readySteps⟩ := prepare_eq_ok prepared
  obtain ⟨debugging, readyUndergoes⟩ :=
    (replays_prepare debugged).exchanges.of_ok prepared underway.calm
  obtain ⟨program, undergoes, again⟩ :=
    replays_perform_elsewhere entry.1 entry.2 ready readyUndergoes.calm
  have isProgram : debugged.record.program = program := by
    unfold record
    rw [prepared]
    exact undergoes.since_eq
  rw [isProgram] at script
  -- The entries that the instruction took are next on the other script.
  have again := again { plain with state := debugged.state.advance } rest alike.calm
    readyState.symm script
  have keepsSteps : Keeps Session.steps (perform entry.1 entry.2) :=
    keeps_perform (fun _ _ _ => rfl) _ _
  have sameSteps : (left (perform entry.1 entry.2
      { plain with state := debugged.state.advance })).steps = debugged.steps :=
    (keepsSteps _).trans alike.steps
  cases executed : perform entry.1 entry.2 ready with
  | error fault stopped =>
      have stepped : step debugged = .error fault stopped := by
        rw [step_of_running underway.running, bind_of_ok prepared]
        exact bind_eq_error_iff.mpr (.inl executed)
      rw [executed] at again
      rw [stepped] at goesOn
      obtain ⟨said, sameState, undergoes'⟩ := again (goesOn.imp_left (by simp [outcome]))
      have stepped' := alike.unattended.step_of_perform_error running fetching
        (eq_error_of_outcome said)
      have stoppedSteps := (keepsSteps.of_error executed).trans readySteps
      exact .of_results stepped stepped' rfl
        ⟨sameState, sameSteps.trans stoppedSteps.symm, stays, undergoes'.calm⟩
        isProgram undergoes'
        (alike.unattended.record_of_fetch_ok alike.calm fetching rfl undergoes'
          (by rw [stepped', left_error]))
  | ok _ performed =>
      rw [executed] at undergoes again
      obtain ⟨said, sameState, undergoes'⟩ := again (.inl ⟨(), rfl⟩)
      have calm : performed.retire.console.Calm := undergoes.calm
      obtain ⟨after, concluded, -⟩ := conclude_of_calm calm
      have stepped : step debugged = .ok performed.retire.state.retirement after := by
        rw [step_of_running underway.running, bind_of_ok prepared, bind_of_ok executed]
        exact concluded
      obtain ⟨afterState, afterSteps⟩ :=
        machine_eq_iff.mp ((keeps_conclude machine_ignoresConsole).of_ok concluded)
      obtain ⟨stepped', staysRetired⟩ :=
        alike.unattended.step_of_ok running fetching (eq_ok_of_outcome said)
      have sameRetired : (left (perform entry.1 entry.2
          { plain with state := debugged.state.advance })).retire.state =
            performed.retire.state := by
        rw [retire, retire, sameState]
        rfl
      have performedSteps := (keepsSteps.of_ok executed).trans readySteps
      refine .of_results stepped stepped' ?_ ⟨?_, ?_, staysRetired, undergoes'.calm⟩
        isProgram undergoes'
        (alike.unattended.record_of_fetch_ok alike.calm fetching rfl undergoes'
          (by rw [stepped', left_ok]; rfl))
      · rw [sameRetired]
        rfl
      · exact sameRetired.trans afterState.symm
      · refine Eq.trans ?_ afterSteps.symm
        exact congrArg (· + 1) (sameSteps.trans performedSteps.symm)

/-- The unattended session steps as the other one does, on a script that begins with the
entries that the instruction takes. -/
theorem Alike.step {rest : List Entry} (alike : Alike plain debugged)
    (underway : debugged.Underway) (undisturbed : ¬debugged.StopsAtPrompt)
    (script : plain.console.script = debugged.record.program.entries ++ rest)
    (goesOn : (∃ value, outcome (step debugged) = .ok value) ∨
      rest = (left (step debugged)).console.script) :
    StepsAlike plain debugged := by
  cases prepared : prepare debugged with
  | error fault stopped =>
      have refused := underway.fetch_of_prepare_error undisturbed prepared
      rw [(fetch_eq_error refused).1] at prepared refused
      exact alike.stepsAlike_of_fetch_error underway prepared refused
  | ok entry ready => exact alike.stepsAlike_of_fetch_ok underway prepared script goesOn

/-! ## Whole runs -/

theorem undergoes_report (calm : session.console.Calm) (fault : Fault) :
    session.console.Undergoes (Ending.report (.faulted fault)) (report fault session).console := by
  obtain ⟨after, written, undergoes⟩ := Console.writeLine_of_calm calm fault.report.text
  unfold report
  rw [written]
  exact undergoes

theorem machine_report (fault : Fault) (session : Session) :
    (report fault session).machine = session.machine := by
  unfold report
  split <;> rfl

theorem records_of_retired {fuel : Nat} (stepped : step session = .ok .retired after) :
    records (fuel + 1) session = session.record :: records fuel after := by
  rw [records, stepped]

theorem records_of_halted {fuel : Nat} (stepped : step session = .ok .halted after) :
    records (fuel + 1) session = [session.record] := by
  rw [records, stepped]

theorem records_of_error {fuel : Nat} (stepped : step session = .error fault after) :
    records (fuel + 1) session = [session.record] := by
  rw [records, stepped]

/-- All that passes in a run on a calm console is in its records, but for the report at
its end. -/
theorem Underway.undergoes_conversation {fuel : Nat} {finished : Finished}
    (underway : session.Underway) (ended : run fuel session = some finished) :
    session.console.Undergoes ((conversation fuel session).andThen finished.ending.report)
      finished.session.console := by
  induction fuel generalizing session with
  | zero => cases ended
  | succ fuel inductionHypothesis =>
      have undergoes := underway.undergoes_record
      unfold conversation
      rw [run] at ended
      cases stepped : step session with
      | error fault after =>
          rw [stepped] at ended undergoes
          cases ended
          rw [records_of_error stepped]
          exact (undergoes.trans undergoes.calm.undergoes_nothing).trans
            (undergoes_report undergoes.calm fault)
      | ok outcome after =>
          rw [stepped] at ended undergoes
          cases outcome with
          | halted =>
              cases ended
              rw [records_of_halted stepped]
              exact (undergoes.trans undergoes.calm.undergoes_nothing).trans
                undergoes.calm.undergoes_nothing
          | retired =>
              have later := inductionHypothesis (underway.of_step stepped) ended
              rw [records_of_retired stepped, List.map_cons, Exchange.concat,
                Exchange.andThen_assoc]
              exact undergoes.trans later

theorem programExchange_of_last {fuel : Nat}
    (last : records (fuel + 1) session = [session.record]) :
    programExchange (fuel + 1) session = session.record.program := by
  unfold programExchange
  rw [last]
  exact Exchange.andThen_nothing _

private theorem programExchange_of_retired {fuel : Nat}
    (stepped : step session = .ok .retired after) :
    programExchange (fuel + 1) session =
      session.record.program.andThen (programExchange fuel after) := by
  unfold programExchange
  rw [records_of_retired stepped]
  rfl

/-- What the lock step of two runs comes to. -/
structure EndsAlike (fuel : Nat) (plain debugged : Session) (other finished : Finished) :
    Prop where
  ending : other.ending = finished.ending
  state : other.session.state = finished.session.state
  steps : other.session.steps = finished.session.steps
  undergoes : plain.console.Undergoes
    ((programExchange fuel debugged).andThen finished.ending.report) other.session.console
  records : records fuel plain = (Session.records fuel debugged).map StepRecord.undebugged

theorem StepsAlike.of_error (stepsAlike : StepsAlike plain debugged)
    (stepped : step debugged = .error fault after) :
    step plain = .error fault (left (step plain)) ∧ Alike (left (step plain)) after := by
  obtain ⟨sameOutcome, alike, -, -⟩ := stepsAlike
  rw [stepped] at sameOutcome alike
  exact ⟨eq_error_of_outcome sameOutcome, alike⟩

theorem StepsAlike.of_ok {outcome : StepOutcome} (stepsAlike : StepsAlike plain debugged)
    (stepped : step debugged = .ok outcome after) :
    step plain = .ok outcome (left (step plain)) ∧ Alike (left (step plain)) after := by
  obtain ⟨sameOutcome, alike, -, -⟩ := stepsAlike
  rw [stepped] at sameOutcome alike
  exact ⟨eq_ok_of_outcome sameOutcome, alike⟩

/-- Where the debugged session faults, the other one reports the same fault. -/
theorem StepsAlike.run_of_error (stepsAlike : StepsAlike plain debugged) (fuel : Nat)
    (stepped : step debugged = .error fault after) :
    ∃ other, run (fuel + 1) plain = some other ∧
      EndsAlike (fuel + 1) plain debugged other ⟨.faulted fault, report fault after⟩ := by
  obtain ⟨stepped', alike⟩ := stepsAlike.of_error stepped
  obtain ⟨plainState, plainSteps⟩ :=
    machine_eq_iff.mp (machine_report fault (left (step plain)))
  obtain ⟨state, steps⟩ := machine_eq_iff.mp (machine_report fault after)
  refine ⟨⟨.faulted fault, report fault (left (step plain))⟩, ?_, ?_⟩
  · rw [run, stepped']
    rfl
  · exact
      { ending := rfl
        state := plainState.trans (alike.state.trans state.symm)
        steps := plainSteps.trans (alike.steps.trans steps.symm)
        undergoes := by
          rw [programExchange_of_last (records_of_error stepped)]
          exact stepsAlike.undergoes.trans (undergoes_report alike.calm fault)
        records := by
          rw [records_of_error stepped', records_of_error stepped, stepsAlike.record]
          rfl }

private theorem StepsAlike.run_of_halted (stepsAlike : StepsAlike plain debugged) (fuel : Nat)
    (stepped : step debugged = .ok .halted after) :
    ∃ other, run (fuel + 1) plain = some other ∧
      EndsAlike (fuel + 1) plain debugged other ⟨.halted, after⟩ := by
  obtain ⟨stepped', alike⟩ := stepsAlike.of_ok stepped
  refine ⟨⟨.halted, left (step plain)⟩, ?_, ?_⟩
  · rw [run, stepped']
    rfl
  · exact
      { ending := rfl
        state := alike.state
        steps := alike.steps
        undergoes := by
          rw [programExchange_of_last (records_of_halted stepped)]
          exact stepsAlike.undergoes.trans alike.calm.undergoes_nothing
        records := by
          rw [records_of_halted stepped', records_of_halted stepped, stepsAlike.record]
          rfl }

/-- Two runs that end alike after a step also do before it. -/
theorem StepsAlike.run_of_retired {fuel : Nat} {other finished : Finished}
    (stepsAlike : StepsAlike plain debugged) (stepped : step debugged = .ok .retired after)
    (ended : run fuel (left (step plain)) = some other)
    (later : EndsAlike fuel (left (step plain)) after other finished) :
    run (fuel + 1) plain = some other ∧
      EndsAlike (fuel + 1) plain debugged other finished := by
  obtain ⟨stepped', -⟩ := stepsAlike.of_ok stepped
  refine ⟨?_, ?_⟩
  · rw [run, stepped']
    exact ended
  · exact
      { ending := later.ending
        state := later.state
        steps := later.steps
        undergoes := by
          rw [programExchange_of_retired stepped, Exchange.andThen_assoc]
          exact stepsAlike.undergoes.trans later.undergoes
        records := by
          rw [records_of_retired stepped', records_of_retired stepped, stepsAlike.record,
            later.records]
          rfl }

/-- An unattended session, on the entries that the instructions of a debugged run take,
ends as that run ends. -/
theorem Alike.run {fuel : Nat} {finished : Finished} (alike : Alike plain debugged)
    (underway : debugged.Underway) (undisturbed : Undisturbed fuel debugged)
    (ended : run fuel debugged = some finished)
    (script : plain.console.script =
      (programExchange fuel debugged).entries ++ finished.session.console.script) :
    ∃ other, Session.run fuel plain = some other ∧
      EndsAlike fuel plain debugged other finished := by
  induction fuel generalizing plain debugged with
  | zero => cases ended
  | succ fuel inductionHypothesis =>
      obtain ⟨unstopped, laterUndisturbed⟩ := undisturbed
      have undergoes := underway.undergoes_record
      rw [Session.run] at ended
      cases stepped : Session.step debugged with
      | error fault after =>
          rw [stepped] at ended undergoes
          cases ended
          have unread : (report fault after).console.script = after.console.script :=
            (undergoes_report undergoes.calm fault).script.symm
          rw [programExchange_of_last (records_of_error stepped), unread] at script
          have stepsAlike := alike.step underway unstopped script (.inr (by rw [stepped]; rfl))
          exact stepsAlike.run_of_error fuel stepped
      | ok outcome after =>
          have goesOn : ∃ value, Effects.outcome (Session.step debugged) = .ok value :=
            ⟨outcome, by rw [stepped]; rfl⟩
          rw [stepped] at ended
          cases outcome with
          | halted =>
              cases ended
              rw [programExchange_of_last (records_of_halted stepped)] at script
              have stepsAlike := alike.step underway unstopped script (.inl goesOn)
              exact stepsAlike.run_of_halted fuel stepped
          | retired =>
              rw [programExchange_of_retired stepped, Exchange.andThen,
                List.append_assoc] at script
              have stepsAlike := alike.step underway unstopped script (.inl goesOn)
              -- What the step takes off the script is what its instruction takes.
              have later := List.append_cancel_left (stepsAlike.undergoes.script.symm.trans script)
              obtain ⟨other, endedLater, endsAlike⟩ :=
                inductionHypothesis (stepsAlike.of_ok stepped).2 (underway.of_step stepped)
                  (laterUndisturbed after stepped) ended later
              exact ⟨other, stepsAlike.run_of_retired stepped endedLater endsAlike⟩

/-! ## The debugged run and the other -/

/-- A prompt that ends the run is the fault of the step, and has no context. -/
theorem StopsAtPrompt.step_eq_error (stops : session.StopsAtPrompt)
    (running : session.state.halted = false) :
    ∃ fault after, step session = .error fault after ∧ fault.context? = none ∧
      fault.cause.code.isOperatorInitiated = true := by
  obtain ⟨fault, after, failed, byOperator⟩ := stops
  have bare := (failed.isFromDialogue (by decide) (by decide)).1
  obtain - | - | ⟨answered, fetching, uncommanded⟩ := failed
  refine ⟨fault, after, ?_, bare, byOperator⟩
  rw [step_of_running running]
  refine bind_eq_error_iff.mpr (.inl ?_)
  unfold prepare
  rw [bind_of_ok answered, bind_of_ok fetching]
  exact bind_eq_error_iff.mpr (.inl uncommanded)

/-- No prompt has ended a run that halts, or that ends with another fault than a prompt
raises. -/
theorem Underway.undisturbed_of_ending {fuel : Nat} {finished : Finished}
    (underway : session.Underway) (ended : run fuel session = some finished)
    (unprompted : ∀ fault, finished.ending = .faulted fault → fault.context? = none →
      fault.cause.code.isOperatorInitiated = false) : Undisturbed fuel session := by
  induction fuel generalizing session with
  | zero => trivial
  | succ fuel inductionHypothesis =>
      rw [run] at ended
      refine ⟨fun stops => ?_, fun after stepped => ?_⟩
      · obtain ⟨fault, after, stepped, bare, byOperator⟩ :=
          stops.step_eq_error underway.running
        rw [stepped] at ended
        cases ended
        exact absurd byOperator (by rw [unprompted fault rfl bare]; decide)
      · rw [stepped] at ended
        exact inductionHypothesis (underway.of_step stepped) ended

private theorem underway_start (image : Image) (showNext : Bool) (script : List Entry) :
    (start image ⟨.enabled, showNext⟩ (.start script .calm)).Underway :=
  ⟨⟨rfl, rfl⟩, rfl, rfl⟩

private theorem alike_start (image : Image) (showNext showNext' : Bool)
    (script script' : List Entry) :
    Alike (start image ⟨.disabled, showNext'⟩ (.start script' .calm))
      (start image ⟨.enabled, showNext⟩ (.start script .calm)) :=
  ⟨rfl, rfl, unattended_start .., ⟨rfl, rfl⟩⟩

private theorem script_and_output_of_report {script : List Entry} {exchange : Exchange}
    {ending : Ending} {after : Console}
    (undergoes : (Console.start script .calm).Undergoes (exchange.andThen ending.report) after) :
    script = exchange.entries ++ after.script ∧
      after.output = exchange.text ++ ending.report.text := by
  have unread : ending.report.entries = [] := by cases ending <;> rfl
  refine ⟨?_, undergoes.output.trans String.empty_append⟩
  have parts := undergoes.script
  rw [Exchange.andThen, unread, List.append_nil] at parts
  exact parts

/-- Debugging is transparent. The script of a debugged run is what was answered to the
prompts and what the instructions took, in the order of the records, and then a rest.
Without the debugger, on what the instructions took and the same rest, the run ends in
the same way, with the same state and count, and leaves the rest. Its records are those
of the debugged run without the prompts, the traces and the notice of a halt. -/
theorem run_without_debugger {image : Image} {showNext showNext' : Bool}
    {script : List Entry} {fuel : Nat} {finished : Finished} {debugged : Session}
    (isStart : debugged = start image ⟨.enabled, showNext⟩ (.start script .calm))
    (undisturbed : Undisturbed fuel debugged) (ended : run fuel debugged = some finished) :
    ∃ plain other,
      plain = start image ⟨.disabled, showNext'⟩ (.start
        ((programExchange fuel debugged).entries ++ finished.session.console.script) .calm) ∧
      run fuel plain = some other ∧
      other.ending = finished.ending ∧
      other.session.state = finished.session.state ∧
      other.session.steps = finished.session.steps ∧
      other.session.console.script = finished.session.console.script ∧
      records fuel plain = (records fuel debugged).map StepRecord.undebugged ∧
      script = (conversation fuel debugged).entries ++ finished.session.console.script ∧
      finished.session.console.output =
        (conversation fuel debugged).text ++ finished.ending.report.text ∧
      other.session.console.output =
        (programExchange fuel debugged).text ++ finished.ending.report.text := by
  subst isStart
  have underway := underway_start image showNext script
  have undergoes := underway.undergoes_conversation ended
  obtain ⟨other, ended', endsAlike⟩ :=
    (alike_start image showNext showNext' script _).run underway undisturbed ended rfl
  obtain ⟨parts, output⟩ := script_and_output_of_report undergoes
  obtain ⟨parts', output'⟩ := script_and_output_of_report endsAlike.undergoes
  exact ⟨_, other, rfl, ended', endsAlike.ending, endsAlike.state, endsAlike.steps,
    (List.append_cancel_left parts').symm, endsAlike.records, parts, output, output'⟩

def echo : Image :=
  ⟨[some 0x0101, some 0x0102, some 0x0000]⟩

/-- The echo in the debugger: registers are shown, one instruction is stepped through,
and the program reads on while the debugger has gone to the end. -/
def debuggedEcho : Session :=
  start echo ⟨.enabled, true⟩
    (.start [.line "p", .line "", .line "x", .line "7", .line "c", .line "rest"] .calm)

/-- The echo takes two of the six lines, and leaves the last. -/
theorem echo_without_debugger :
    ∃ other, run 3 (start echo ⟨.disabled, true⟩
        (.start [.line "x", .line "7", .line "rest"] .calm)) = some other ∧
      other.ending = .halted ∧ other.session.steps = 3 ∧
      other.session.console.script = [.line "rest"] := by
  have ending : (run 3 debuggedEcho).map (fun finished =>
      (finished.ending, finished.session.steps, finished.session.console.script)) =
      some (.halted, 3, [.line "rest"]) := by
    decide +kernel
  have taken : (programExchange 3 debuggedEcho).entries = [.line "x", .line "7"] := by
    decide +kernel
  obtain ⟨finished, ended, parts⟩ := Option.map_eq_some_iff.mp ending
  obtain ⟨halted, steps, rest⟩ : finished.ending = .halted ∧ finished.session.steps = 3 ∧
      finished.session.console.script = [.line "rest"] := by
    simpa using parts
  have undisturbed : Undisturbed 3 debuggedEcho :=
    (underway_start echo true _).undisturbed_of_ending ended fun fault faulted =>
      absurd (halted.symm.trans faulted) (by simp)
  obtain ⟨plain, other, isPlain, ended', sameEnding, -, sameSteps, sameRest, -⟩ :=
    @run_without_debugger echo true true _ 3 finished debuggedEcho rfl undisturbed ended
  rw [taken, rest] at isPlain
  subst isPlain
  exact ⟨other, ended', sameEnding.trans halted, sameSteps.trans steps, sameRest.trans rest⟩

end Session

end MiniatureMachine
