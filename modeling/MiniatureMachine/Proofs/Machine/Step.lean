import MiniatureMachine.Machine.Session
import MiniatureMachine.Proofs.Machine.Footprint

/-!
Contract: the anatomy of one step.

Owns:
- what each part of a step leaves as it is;
- the parts before the execution, taken together;
- how a step succeeds, and the parts in which it can fail.

Asking, taking commands, tracing and announcing a halt are dialogues: they keep
the state of the machine and the count of instructions. Only fetching, executing
and retiring change them.
-/

namespace MiniatureMachine

open Effects

/-- The state in which a fetched instruction executes: the counter points behind
it. -/
def State.advance (state : State) : State :=
  { state with pc := state.pc + 1 }

/-- How a step ends that retires an instruction. -/
def State.retirement (state : State) : StepOutcome :=
  if state.halted then .halted else .retired

/-- A fault of a dialogue: it comes from the operator or the console, and has no
context. -/
def Fault.IsFromDialogue (fault : Fault) : Prop :=
  fault.context? = none ∧ fault.cause.IsFromDialogue

namespace Session

/-- The part of a session that dialogues leave as it is. -/
def machine (session : Session) : State × Nat :=
  (session.state, session.steps)

theorem machine_eq_iff {session : Session} {state : State} {steps : Nat} :
    session.machine = (state, steps) ↔ session.state = state ∧ session.steps = steps := by
  simp only [machine, Prod.mk.injEq]

def consolePart : StatePart Session Console where
  get := Session.console
  put console session := { session with console := console }
  get_put _ _ := rfl
  put_put _ _ _ := rfl

def benchPart : StatePart Session Bench where
  get session := ⟨session.state, session.console⟩
  put bench session := { session with state := bench.state, console := bench.console }
  get_put _ _ := rfl
  put_put _ _ _ := rfl

theorem converse_eq_lift {α : Type} (dialogue : Dialogue α) :
    converse dialogue = consolePart.lift Fault.bare dialogue := by
  funext session
  unfold converse StatePart.lift consolePart
  dsimp only
  cases dialogue session.console <;> rfl

theorem perform_eq_lift (pc : Nat) (word : Word) :
    perform pc word =
      benchPart.lift (fun cause => ⟨cause, some (FaultContext.ofWord pc word)⟩)
        ((Instruction.decode word).execute pc) := by
  funext session
  unfold perform StatePart.lift benchPart
  dsimp only
  cases (Instruction.decode word).execute pc ⟨session.state, session.console⟩ <;> rfl

/-! ## Parts that are dialogues -/

/-- A view of a session that does not show the console. -/
def IgnoresConsole {ν : Type} (view : Session → ν) : Prop :=
  ∀ session console, view { session with console := console } = view session

/-- A view of a session that shows neither the console nor the debugger. -/
def IgnoresDialogue {ν : Type} (view : Session → ν) : Prop :=
  ∀ session console debugger,
    view { session with console := console, debugger := debugger } = view session

theorem machine_ignoresConsole : IgnoresConsole machine :=
  fun _ _ => rfl

theorem machine_ignoresDialogue : IgnoresDialogue machine :=
  fun _ _ _ => rfl

section Views

variable {ν : Type} {view : Session → ν}

theorem keeps_converse {α : Type} (ignores : IgnoresConsole view) (dialogue : Dialogue α) :
    Keeps view (converse dialogue) := by
  intro before
  unfold converse
  cases dialogue before.console <;> exact ignores before _

theorem keeps_takeCommands (ignores : IgnoresDialogue view) : Keeps view takeCommands := by
  have converses : ∀ {α : Type} (dialogue : Dialogue α), Keeps view (converse dialogue) :=
    keeps_converse fun session console => ignores session console session.debugger
  intro session
  fun_induction takeCommands session with
  | case1 session wants fault after asked => exact (converses _).of_error asked
  | case2 session wants line asked prompted command fault after shown =>
      exact ((converses _).of_error shown).trans ((converses _).of_ok prompted)
  | case3 session wants line asked prompted command shown responded obeyed quits =>
      exact (ignores shown shown.console _).trans
        (((converses _).of_ok responded).trans ((converses _).of_ok prompted))
  | case4 session wants line asked prompted command shown responded obeyed goesOn
      inductionHypothesis =>
      exact inductionHypothesis.trans ((ignores shown shown.console _).trans
        (((converses _).of_ok responded).trans ((converses _).of_ok prompted)))
  | case5 session resting => rfl

theorem keeps_trace (ignores : IgnoresConsole view) (pc : Nat) (word : Word) :
    Keeps view (trace pc word) := by
  refine Keeps.get.bind fun session => ?_
  split
  · exact keeps_converse ignores _
  · exact .pure _

theorem keeps_conclude (ignores : IgnoresConsole view) : Keeps view conclude := by
  refine Keeps.get.bind fun session => ?_
  split
  · split
    · exact (keeps_converse ignores _).bind fun _ => .pure _
    · exact .pure _
  · exact .pure _

end Views

theorem keeps_askAboutDebugging : Keeps machine askAboutDebugging := by
  refine Keeps.get.bind fun session => ?_
  split
  · exact (keeps_converse machine_ignoresConsole _).bind fun answer => .modify fun _ => rfl
  · exact .pure _

/-- One turn of the debugger's prompts. -/
theorem takeCommands_eq :
    takeCommands = (do
      let session ← get
      if session.debugger.wantsCommand then
        let line ← converse (Console.promptLine Debugger.commandPrompt)
        let asked ← get
        converse (respond asked.state (DebugCommand.parse line))
        modify fun shown =>
          { shown with debugger := shown.debugger.apply (DebugCommand.parse line) }
        if DebugCommand.parse line = .quit then throw (.bare .aborted) else takeCommands
      else
        pure () : Phase Unit) := by
  funext session
  rw [takeCommands, get_bind]
  split
  · split
    · rename_i fault after asked
      exact (bind_eq_error_iff.mpr (.inl asked)).symm
    · rename_i line asked prompted
      rw [bind_of_ok prompted, get_bind]
      dsimp only
      split
      · rename_i fault after shown
        exact (bind_eq_error_iff.mpr (.inl shown)).symm
      · rename_i shown responded
        rw [bind_of_ok responded]
        by_cases quits : DebugCommand.parse line = .quit <;> simp only [quits] <;> rfl
  · rfl

/-- Every command takes an entry. -/
theorem length_script_of_turn {session asked shown : Session} {prompt line : String}
    {state : State} {command : DebugCommand}
    (prompted : converse (Console.promptLine prompt) session = .ok line asked)
    (responded : converse (respond state command) asked = .ok () shown) :
    shown.console.script.length < session.console.script.length := by
  rw [Console.script_promptLine (script_converse prompted),
    ← script_respond (script_converse responded)]
  exact Nat.lt_succ_self _

/-! ## Faults of dialogues -/

theorem converse_eq_error {α : Type} {dialogue : Dialogue α} {session after : Session}
    {fault : Fault} (failed : converse dialogue session = .error fault after) :
    ∃ cause console, dialogue session.console = .error cause console ∧ fault = .bare cause := by
  unfold converse at failed
  cases ran : dialogue session.console with
  | ok value console =>
      rw [ran] at failed
      cases failed
  | error cause console =>
      rw [ran] at failed
      cases failed
      exact ⟨cause, console, rfl, rfl⟩

theorem failsOnly_converse {α : Type} {dialogue : Dialogue α}
    (fails : FailsOnly FaultCause.IsFromDialogue dialogue) :
    FailsOnly Fault.IsFromDialogue (converse dialogue) := by
  intro before fault after failed
  obtain ⟨cause, console, ran, rfl⟩ := converse_eq_error failed
  exact ⟨rfl, fails _ _ _ ran⟩

private theorem failsOnly_askAboutDebugging :
    FailsOnly Fault.IsFromDialogue askAboutDebugging := by
  intro before fault after failed
  unfold askAboutDebugging at failed
  rw [get_bind] at failed
  split at failed
  · rcases bind_eq_error_iff.mp failed with inDialogue | ⟨answer, middle, -, ⟨⟩⟩
    exact failsOnly_converse (Console.failsOnly_promptLine _) _ _ _ inDialogue
  · cases failed

private theorem failsOnly_respond (state : State) (command : DebugCommand) :
    FailsOnly FaultCause.IsFromDialogue (respond state command) := by
  cases command with
  | dump => exact Console.failsOnly_write _
  | print | help | run => exact Console.failsOnly_writeLine _
  | «continue» | quit | step => exact .pure _

private theorem failsOnly_takeCommands : FailsOnly Fault.IsFromDialogue takeCommands := by
  intro session fault after failed
  fun_induction takeCommands session with
  | case1 session wants fault' after' asked =>
      cases failed
      exact failsOnly_converse (Console.failsOnly_promptLine _) _ _ _ asked
  | case2 session wants line asked prompted command fault' after' shown =>
      cases failed
      exact failsOnly_converse (failsOnly_respond _ _) _ _ _ shown
  | case3 session wants line asked prompted command shown responded obeyed quits =>
      rw [← (EStateM.Result.error.inj failed).1]
      exact ⟨rfl, trivial⟩
  | case4 session wants line asked prompted command shown responded obeyed goesOn
      inductionHypothesis =>
      exact inductionHypothesis failed
  | case5 session resting => cases failed

private theorem failsOnly_trace (pc : Nat) (word : Word) :
    FailsOnly Fault.IsFromDialogue (trace pc word) := by
  intro before fault after failed
  unfold trace at failed
  rw [get_bind] at failed
  split at failed
  · exact failsOnly_converse (Console.failsOnly_writeLine _) _ _ _ failed
  · cases failed

/-! ## Fetching and executing -/

theorem fetch_eq_ok {session after : Session} {entry : Nat × Word}
    (fetched : fetch session = .ok entry after) :
    session.console.interrupted = false ∧ session.state.pc < session.state.codeSize ∧
      session.state.cell? session.state.pc = some (.code (some entry.2)) ∧
      entry.1 = session.state.pc ∧ after = { session with state := session.state.advance } := by
  unfold fetch at fetched
  rw [get_bind] at fetched
  dsimp only at fetched
  split at fetched
  · cases fetched
  · rename_i calm
    split at fetched
    · cases fetched
    · rename_i inCode
      rcases held : session.state.cell? session.state.pc with _ | (_ | word) | word <;>
        rw [held] at fetched <;> cases fetched
      exact ⟨by simpa using calm, by omega, rfl, rfl, rfl⟩

/-- The ways in which a fetch fails. -/
inductive RefusesFetch (session : Session) : FaultCause → Prop
  | interrupted (raised : session.console.interrupted = true) :
      RefusesFetch session .interrupted
  | outOfBounds (outside : session.state.codeSize ≤ session.state.pc) :
      RefusesFetch session (.memoryOutOfBounds session.state.pc)
  | malformed (inCode : session.state.pc < session.state.codeSize)
      (unreadable : ∀ word, session.state.cell? session.state.pc ≠ some (.code (some word))) :
      RefusesFetch session (.badInstruction session.state.pc)

theorem fetch_eq_error {session after : Session} {fault : Fault}
    (failed : fetch session = .error fault after) :
    after = session ∧ ∃ cause, fault = .bare cause ∧ RefusesFetch session cause := by
  unfold fetch at failed
  rw [get_bind] at failed
  dsimp only at failed
  split at failed
  · rename_i raised
    cases failed
    exact ⟨rfl, _, rfl, .interrupted raised⟩
  · split at failed
    · rename_i outside
      cases failed
      exact ⟨rfl, _, rfl, .outOfBounds outside⟩
    · rename_i inCode
      rcases held : session.state.cell? session.state.pc with _ | (_ | word) | word <;>
        rw [held] at failed <;> cases failed <;>
        exact ⟨rfl, _, rfl, .malformed (by omega) (by simp [held])⟩

theorem fetch_of_interrupted {session : Session} (raised : session.console.interrupted = true) :
    fetch session = .error (.bare .interrupted) session := by
  unfold fetch
  rw [get_bind]
  dsimp only
  rw [if_pos raised]
  rfl

theorem fetch_of_outside {session : Session} (calm : session.console.interrupted = false)
    (outside : session.state.codeSize ≤ session.state.pc) :
    fetch session = .error (.bare (.memoryOutOfBounds session.state.pc)) session := by
  unfold fetch
  rw [get_bind]
  dsimp only
  rw [if_neg (Bool.eq_false_iff.mp calm), if_pos outside]
  rfl

theorem fetch_of_held {session : Session} {word : Word}
    (calm : session.console.interrupted = false)
    (inCode : session.state.pc < session.state.codeSize)
    (held : session.state.cell? session.state.pc = some (.code (some word))) :
    fetch session =
      .ok (session.state.pc, word) { session with state := session.state.advance } := by
  unfold fetch
  rw [get_bind]
  dsimp only
  rw [if_neg (Bool.eq_false_iff.mp calm), if_neg (Nat.not_le.mpr inCode), held]
  rfl

/-- A fetch looks at the state and at the interrupt flag, and changes the state. -/
theorem fetch_congr {session other : Session} (sameState : other.state = session.state)
    (sameFlag : other.console.interrupted = session.console.interrupted) :
    outcome (fetch other) = outcome (fetch session) ∧
      left (fetch other) = { other with state := (left (fetch session)).state } := by
  have unchanged : other = { other with state := session.state } := by rw [← sameState]
  unfold fetch
  rw [get_bind, get_bind, sameState, sameFlag]
  dsimp only
  split
  · exact ⟨rfl, unchanged⟩
  · split
    · exact ⟨rfl, unchanged⟩
    · rcases session.state.cell? session.state.pc with _ | (_ | word) | word
      case some.code.some => exact ⟨rfl, rfl⟩
      all_goals exact ⟨rfl, unchanged⟩

theorem keeps_perform {ν : Type} {view : Session → ν}
    (ignores : ∀ session state console,
      view { session with state := state, console := console } = view session)
    (pc : Nat) (word : Word) : Keeps view (perform pc word) := by
  intro session
  unfold perform
  split <;> exact ignores session _ _

private theorem perform_eq_ok {pc : Nat} {word : Word} {session after : Session}
    (performed : perform pc word session = .ok () after) :
    ∃ bench, (Instruction.decode word).execute pc ⟨session.state, session.console⟩ =
        .ok () bench ∧
      after = { session with state := bench.state, console := bench.console } := by
  unfold perform at performed
  split at performed
  · rename_i bench executed
    cases performed
    exact ⟨bench, executed, rfl⟩
  · cases performed

theorem perform_of_ok {pc : Nat} {word : Word} {session : Session} {bench : Bench}
    (executed : (Instruction.decode word).execute pc ⟨session.state, session.console⟩ =
      .ok () bench) :
    perform pc word session =
      .ok () { session with state := bench.state, console := bench.console } := by
  unfold perform
  rw [executed]

theorem perform_of_error {pc : Nat} {word : Word} {session : Session} {bench : Bench}
    {cause : FaultCause}
    (failed : (Instruction.decode word).execute pc ⟨session.state, session.console⟩ =
      .error cause bench) :
    perform pc word session = .error ⟨cause, some (FaultContext.ofWord pc word)⟩
      { session with state := bench.state, console := bench.console } := by
  unfold perform
  rw [failed]

theorem perform_eq_error {pc : Nat} {word : Word} {session after : Session} {fault : Fault}
    (failed : perform pc word session = .error fault after) :
    ∃ cause bench, (Instruction.decode word).execute pc ⟨session.state, session.console⟩ =
        .error cause bench ∧
      fault = ⟨cause, some (FaultContext.ofWord pc word)⟩ ∧
      after = { session with state := bench.state, console := bench.console } := by
  unfold perform at failed
  split at failed
  · cases failed
  · rename_i cause bench executed
    cases failed
    exact ⟨cause, bench, executed, rfl, rfl⟩

theorem conclude_eq_ok {session after : Session} {outcome : StepOutcome}
    (concluded : conclude session = .ok outcome after) : outcome = session.state.retirement := by
  unfold conclude at concluded
  unfold State.retirement
  rw [get_bind] at concluded
  split at concluded
  · rename_i halted
    rw [if_pos halted]
    split at concluded
    · obtain ⟨_, _, -, ⟨⟩⟩ := bind_eq_ok_iff.mp concluded
      rfl
    · cases concluded
      rfl
  · rename_i running
    cases concluded
    rw [if_neg running]

/-- Only the notice of a traced halt can fail after an instruction has retired,
and only because it cannot be written. -/
theorem conclude_eq_error {session after : Session} {fault : Fault}
    (failed : conclude session = .error fault after) :
    session.state.halted = true ∧ session.debugger.tracing = true ∧
      ∃ failure, fault = .bare (.console failure) := by
  unfold conclude at failed
  rw [get_bind] at failed
  split at failed
  · rename_i halted
    split at failed
    · rename_i tracing
      rcases bind_eq_error_iff.mp failed with inNotice | ⟨_, _, -, ⟨⟩⟩
      obtain ⟨cause, console, unwritten, rfl⟩ := converse_eq_error inNotice
      obtain ⟨failure, rfl⟩ := Console.writeLine_eq_error unwritten
      exact ⟨halted, tracing, failure, rfl⟩
    · cases failed
  · cases failed

/-! ## The parts before the execution -/

/-- Everything a step does before it executes the instruction: asking, fetching,
taking commands and tracing. The result is the address and the word. -/
def prepare : Phase (Nat × Word) := do
  askAboutDebugging
  let entry ← fetch
  takeCommands
  trace entry.1 entry.2
  return entry

theorem step_of_halted {session : Session} (halted : session.state.halted = true) :
    step session = .ok .halted session := by
  unfold step
  rw [get_bind, if_pos halted]
  rfl

theorem step_of_running {session : Session} (running : session.state.halted = false) :
    step session =
      (do
        let entry ← prepare
        perform entry.1 entry.2
        modify retire
        conclude) session := by
  unfold step prepare
  rw [get_bind, running]
  simp only [Bool.false_eq_true, if_false, bind, EStateM.bind]
  cases askAboutDebugging session with
  | error fault asked => rfl
  | ok _ asked =>
      dsimp only
      cases fetch asked with
      | error fault fetched => rfl
      | ok entry fetched =>
          dsimp only
          cases takeCommands fetched with
          | error fault obeyed => rfl
          | ok _ obeyed =>
              dsimp only
              cases trace entry.1 entry.2 obeyed <;> rfl

theorem machine_of_fetched {session asked fetched : Session} {entry : Nat × Word}
    (answered : askAboutDebugging session = .ok () asked)
    (fetching : fetch asked = .ok entry fetched) :
    session.state.pc < session.state.codeSize ∧
      session.state.cell? session.state.pc = some (.code (some entry.2)) ∧
      entry.1 = session.state.pc ∧ fetched.machine = (session.state.advance, session.steps) := by
  obtain ⟨sameState, sameSteps⟩ :=
    machine_eq_iff.mp (keeps_askAboutDebugging.of_ok answered)
  obtain ⟨-, inCode, held, address, rfl⟩ := fetch_eq_ok fetching
  rw [sameState] at inCode held address
  refine ⟨inCode, held, address, machine_eq_iff.mpr ⟨?_, sameSteps⟩⟩
  rw [sameState]

theorem prepare_eq_ok {session ready : Session} {entry : Nat × Word}
    (prepared : prepare session = .ok entry ready) :
    session.state.pc < session.state.codeSize ∧
      session.state.cell? session.state.pc = some (.code (some entry.2)) ∧
      entry.1 = session.state.pc ∧ ready.state = session.state.advance ∧
      ready.steps = session.steps := by
  obtain ⟨_, asked, answered, prepared⟩ := bind_eq_ok_iff.mp prepared
  obtain ⟨entry, fetched, fetching, prepared⟩ := bind_eq_ok_iff.mp prepared
  obtain ⟨_, obeyed, commanded, prepared⟩ := bind_eq_ok_iff.mp prepared
  obtain ⟨_, ready, traced, ⟨⟩⟩ := bind_eq_ok_iff.mp prepared
  obtain ⟨inCode, held, address, fetchedMachine⟩ := machine_of_fetched answered fetching
  have obeyedMachine :=
    ((keeps_takeCommands machine_ignoresDialogue).of_ok commanded).trans fetchedMachine
  have readyMachine := ((keeps_trace machine_ignoresConsole _ _).of_ok traced).trans obeyedMachine
  exact ⟨inCode, held, address, machine_eq_iff.mp readyMachine⟩

/-! ## How a step ends -/

/-- A running machine that steps without a fault has executed one instruction. -/
theorem step_eq_ok {session after : Session} {outcome : StepOutcome}
    (running : session.state.halted = false) (stepped : step session = .ok outcome after) :
    ∃ entry ready performed, prepare session = .ok entry ready ∧
      perform entry.1 entry.2 ready = .ok () performed ∧
      conclude (retire performed) = .ok outcome after := by
  rw [step_of_running running] at stepped
  obtain ⟨entry, ready, prepared, stepped⟩ := bind_eq_ok_iff.mp stepped
  obtain ⟨_, performed, executed, stepped⟩ := bind_eq_ok_iff.mp stepped
  obtain ⟨_, retired, ⟨⟩, concluded⟩ := bind_eq_ok_iff.mp stepped
  exact ⟨entry, ready, performed, prepared, executed, concluded⟩

end Session

/-- The parts of a step that can fail, in their order. -/
inductive StepPart where
  /-- The question whether to debug. -/
  | question
  /-- The look at the interrupt flag, at the bounds of the code and at the cell. -/
  | fetch
  /-- The debugger's prompts. -/
  | commands
  | trace
  | execution
  /-- The notice of a traced halt, after the instruction has retired. -/
  | haltNotice
deriving DecidableEq, Repr

namespace Session

/-- A step that goes through up to a part and fails there. -/
inductive FailsIn (session : Session) (fault : Fault) (after : Session) : StepPart → Prop
  | question (unanswered : askAboutDebugging session = .error fault after) :
      FailsIn session fault after .question
  | fetch {asked : Session} (answered : askAboutDebugging session = .ok () asked)
      (refused : Session.fetch asked = .error fault after) : FailsIn session fault after .fetch
  | commands {asked fetched : Session} {entry : Nat × Word}
      (answered : askAboutDebugging session = .ok () asked)
      (fetching : Session.fetch asked = .ok entry fetched)
      (uncommanded : takeCommands fetched = .error fault after) :
      FailsIn session fault after .commands
  | trace {asked fetched obeyed : Session} {entry : Nat × Word}
      (answered : askAboutDebugging session = .ok () asked)
      (fetching : Session.fetch asked = .ok entry fetched)
      (commanded : takeCommands fetched = .ok () obeyed)
      (untraced : Session.trace entry.1 entry.2 obeyed = .error fault after) :
      FailsIn session fault after .trace
  | execution {ready : Session} {entry : Nat × Word}
      (prepared : prepare session = .ok entry ready)
      (failed : perform entry.1 entry.2 ready = .error fault after) :
      FailsIn session fault after .execution
  | haltNotice {ready performed : Session} {entry : Nat × Word}
      (prepared : prepare session = .ok entry ready)
      (executed : perform entry.1 entry.2 ready = .ok () performed)
      (unannounced : conclude (retire performed) = .error fault after) :
      FailsIn session fault after .haltNotice

theorem running_of_error {session after : Session} {fault : Fault}
    (failed : step session = .error fault after) : session.state.halted = false := by
  cases halted : session.state.halted with
  | false => rfl
  | true =>
      rw [step_of_halted halted] at failed
      cases failed

theorem running_of_retired {session after : Session}
    (stepped : step session = .ok .retired after) : session.state.halted = false := by
  cases halted : session.state.halted with
  | false => rfl
  | true =>
      rw [step_of_halted halted] at stepped
      cases stepped

theorem step_eq_error {session after : Session} {fault : Fault}
    (failed : step session = .error fault after) :
    ∃ part, FailsIn session fault after part := by
  rw [step_of_running (running_of_error failed)] at failed
  rcases bind_eq_error_iff.mp failed with failed | ⟨entry, ready, prepared, failed⟩
  · rcases bind_eq_error_iff.mp failed with unanswered | ⟨_, asked, answered, failed⟩
    · exact ⟨_, .question unanswered⟩
    rcases bind_eq_error_iff.mp failed with refused | ⟨entry, fetched, fetching, failed⟩
    · exact ⟨_, .fetch answered refused⟩
    rcases bind_eq_error_iff.mp failed with uncommanded | ⟨_, obeyed, commanded, failed⟩
    · exact ⟨_, .commands answered fetching uncommanded⟩
    rcases bind_eq_error_iff.mp failed with untraced | ⟨_, _, _, ⟨⟩⟩
    exact ⟨_, .trace answered fetching commanded untraced⟩
  · rcases bind_eq_error_iff.mp failed with failed | ⟨_, performed, executed, failed⟩
    · exact ⟨_, .execution prepared failed⟩
    rcases bind_eq_error_iff.mp failed with ⟨⟨⟩⟩ | ⟨_, _, ⟨⟩, unannounced⟩
    exact ⟨_, .haltNotice prepared executed unannounced⟩

/-! ## What a step does to the machine -/

variable {session after : Session} {outcome : StepOutcome} {fault : Fault}

/-- A running machine that steps without a fault executes the fetched instruction,
clears register zero and counts the instruction. -/
theorem execution_of_step (running : session.state.halted = false)
    (stepped : step session = .ok outcome after) :
    ∃ word console bench, session.state.pc < session.state.codeSize ∧
      session.state.cell? session.state.pc = some (.code (some word)) ∧
      (Instruction.decode word).execute session.state.pc ⟨session.state.advance, console⟩ =
        .ok () bench ∧
      after.state = bench.state.clearRegisterZero ∧ after.steps = session.steps + 1 := by
  obtain ⟨entry, ready, performed, prepared, executed, concluded⟩ := step_eq_ok running stepped
  obtain ⟨inCode, held, address, readyState, readySteps⟩ := prepare_eq_ok prepared
  obtain ⟨bench, execution, rfl⟩ := perform_eq_ok executed
  rw [readyState, address] at execution
  obtain ⟨afterState, afterSteps⟩ :=
    machine_eq_iff.mp ((keeps_conclude machine_ignoresConsole).of_ok concluded)
  refine ⟨entry.2, ready.console, bench, inCode, held, execution, afterState, ?_⟩
  rw [afterSteps, retire, readySteps]

/-- A step that retires makes one of the changes of the fetched instruction. -/
theorem changes_of_step (running : session.state.halted = false)
    (stepped : step session = .ok outcome after) :
    ∃ word state, session.state.pc < session.state.codeSize ∧
      session.state.cell? session.state.pc = some (.code (some word)) ∧
      (Instruction.decode word).Changes session.state.advance state ∧
      after.state = state.clearRegisterZero ∧ after.steps = session.steps + 1 := by
  obtain ⟨word, console, bench, inCode, held, execution, left⟩ :=
    execution_of_step running stepped
  exact ⟨word, bench.state, inCode, held, Instruction.changes_of_execute execution, left⟩

theorem FailsIn.machine_of_question (failed : FailsIn session fault after .question) :
    after.state = session.state ∧ after.steps = session.steps := by
  obtain ⟨unanswered⟩ := failed
  exact machine_eq_iff.mp (keeps_askAboutDebugging.of_error unanswered)

theorem FailsIn.machine_of_fetch (failed : FailsIn session fault after .fetch) :
    after.state = session.state ∧ after.steps = session.steps := by
  obtain - | ⟨answered, refused⟩ := failed
  obtain ⟨rfl, -⟩ := fetch_eq_error refused
  exact machine_eq_iff.mp (keeps_askAboutDebugging.of_ok answered)

theorem FailsIn.machine_of_commands (failed : FailsIn session fault after .commands) :
    session.state.pc < session.state.codeSize ∧ after.state = session.state.advance ∧
      after.steps = session.steps := by
  obtain - | - | ⟨answered, fetching, uncommanded⟩ := failed
  obtain ⟨inCode, -, -, fetched⟩ := machine_of_fetched answered fetching
  have obeyed := (keeps_takeCommands machine_ignoresDialogue).of_error uncommanded
  exact ⟨inCode, machine_eq_iff.mp (obeyed.trans fetched)⟩

theorem FailsIn.machine_of_trace (failed : FailsIn session fault after .trace) :
    session.state.pc < session.state.codeSize ∧ after.state = session.state.advance ∧
      after.steps = session.steps := by
  obtain - | - | - | ⟨answered, fetching, commanded, untraced⟩ := failed
  obtain ⟨inCode, -, -, fetched⟩ := machine_of_fetched answered fetching
  have obeyed := ((keeps_takeCommands machine_ignoresDialogue).of_ok commanded).trans fetched
  have traced := (keeps_trace machine_ignoresConsole _ _).of_error untraced
  exact ⟨inCode, machine_eq_iff.mp (traced.trans obeyed)⟩

theorem FailsIn.machine_of_execution (failed : FailsIn session fault after .execution) :
    ∃ word, session.state.pc < session.state.codeSize ∧
      session.state.cell? session.state.pc = some (.code (some word)) ∧
      (Instruction.decode word).Fails session.state.pc session.state.advance fault.cause
        after.state ∧
      after.steps = session.steps := by
  obtain - | - | - | - | ⟨prepared, failed⟩ := failed
  obtain ⟨inCode, held, address, readyState, readySteps⟩ := prepare_eq_ok prepared
  obtain ⟨cause, bench, execution, rfl, rfl⟩ := perform_eq_error failed
  have fails := Instruction.fails_of_execute execution
  rw [readyState, address] at fails
  exact ⟨_, inCode, held, fails, readySteps⟩

/-- Only the halt notice fails after the instruction has retired. -/
theorem FailsIn.machine_of_haltNotice (failed : FailsIn session fault after .haltNotice) :
    ∃ word state, session.state.pc < session.state.codeSize ∧
      session.state.cell? session.state.pc = some (.code (some word)) ∧
      (Instruction.decode word).Changes session.state.advance state ∧
      state.halted = true ∧ (∃ failure, fault = .bare (.console failure)) ∧
      after.state = state.clearRegisterZero ∧ after.steps = session.steps + 1 := by
  obtain - | - | - | - | - | ⟨prepared, executed, unannounced⟩ := failed
  obtain ⟨inCode, held, -, readyState, readySteps⟩ := prepare_eq_ok prepared
  obtain ⟨bench, execution, rfl⟩ := perform_eq_ok executed
  have changes := Instruction.changes_of_execute execution
  rw [readyState] at changes
  obtain ⟨halted, -, unwritten⟩ := conclude_eq_error unannounced
  obtain ⟨afterState, afterSteps⟩ :=
    machine_eq_iff.mp ((keeps_conclude machine_ignoresConsole).of_error unannounced)
  refine ⟨_, bench.state, inCode, held, changes, halted, unwritten, afterState, ?_⟩
  rw [afterSteps, retire, readySteps]

/-- A step that fails has counted an instruction only if it has found it in the code. -/
theorem steps_of_step_error (failed : step session = .error fault after) :
    after.steps = session.steps ∨
      session.state.pc < session.state.codeSize ∧ after.steps = session.steps + 1 := by
  obtain ⟨part, failedIn⟩ := step_eq_error failed
  cases part with
  | question => exact .inl failedIn.machine_of_question.2
  | fetch => exact .inl failedIn.machine_of_fetch.2
  | commands => exact .inl failedIn.machine_of_commands.2.2
  | trace => exact .inl failedIn.machine_of_trace.2.2
  | execution =>
      obtain ⟨_, -, -, -, uncounted⟩ := failedIn.machine_of_execution
      exact .inl uncounted
  | haltNotice =>
      obtain ⟨_, _, inCode, -, -, -, -, -, counted⟩ := failedIn.machine_of_haltNotice
      exact .inr ⟨inCode, counted⟩

/-- Outside the fetch and the execution, a step fails because of a dialogue. -/
theorem FailsIn.isFromDialogue {part : StepPart} (failed : FailsIn session fault after part)
    (notFetch : part ≠ .fetch) (notExecution : part ≠ .execution) :
    fault.IsFromDialogue := by
  cases failed with
  | question unanswered => exact failsOnly_askAboutDebugging _ _ _ unanswered
  | fetch answered refused => exact absurd rfl notFetch
  | commands answered fetching uncommanded => exact failsOnly_takeCommands _ _ _ uncommanded
  | trace answered fetching commanded untraced => exact failsOnly_trace _ _ _ _ _ untraced
  | execution prepared failed => exact absurd rfl notExecution
  | haltNotice prepared executed unannounced =>
      obtain ⟨-, -, failure, rfl⟩ := conclude_eq_error unannounced
      exact ⟨rfl, trivial⟩

/-- A fault that no dialogue raises comes from the fetch or from the execution. -/
theorem FailsIn.fetch_or_execution {part : StepPart}
    (failed : FailsIn session fault after part) (ofMachine : ¬fault.cause.IsFromDialogue) :
    (∃ asked, asked.state = session.state ∧ RefusesFetch asked fault.cause) ∨
      part = .execution := by
  by_cases isFetch : part = .fetch
  · subst isFetch
    obtain - | ⟨answered, refused⟩ := failed
    obtain ⟨-, cause, rfl, refuses⟩ := fetch_eq_error refused
    exact .inl ⟨_, (machine_eq_iff.mp (keeps_askAboutDebugging.of_ok answered)).1, refuses⟩
  · refine .inr (Classical.byContradiction fun notExecution => ?_)
    exact ofMachine (failed.isFromDialogue isFetch notExecution).2

/-- A step that no dialogue fails has refused the fetch or failed to execute the
fetched instruction. -/
theorem refuses_or_fails_of_step (failed : step session = .error fault after)
    (ofMachine : ¬fault.cause.IsFromDialogue) :
    (∃ asked, asked.state = session.state ∧ RefusesFetch asked fault.cause) ∨
      ∃ word, session.state.pc < session.state.codeSize ∧
        session.state.cell? session.state.pc = some (.code (some word)) ∧
        (Instruction.decode word).Fails session.state.pc session.state.advance fault.cause
          after.state := by
  obtain ⟨part, failedIn⟩ := step_eq_error failed
  rcases failedIn.fetch_or_execution ofMachine with refused | isExecution
  · exact .inl refused
  · subst isExecution
    obtain ⟨word, inCode, held, fails, -⟩ := failedIn.machine_of_execution
    exact .inr ⟨word, inCode, held, fails⟩

/-- Only a cell without a word is malformed, and it lies in the code. -/
theorem malformed_of_step {pc : Nat} (failed : step session = .error fault after)
    (malformed : fault.cause = .badInstruction pc) :
    session.state.pc < session.state.codeSize ∧
      ∀ word, session.state.cell? session.state.pc ≠ some (.code (some word)) := by
  rcases refuses_or_fails_of_step failed (by rw [malformed]; exact id) with
    ⟨asked, sameState, refuses⟩ | ⟨word, -, -, fails⟩
  · rw [malformed] at refuses
    rw [← sameState]
    cases refuses with
    | malformed inCode unreadable => exact ⟨inCode, unreadable⟩
  · rw [malformed] at fails
    exact absurd trivial fails.not_isFromFetch

/-- Only a word that is no instruction has an invalid opcode. -/
theorem data_of_step {pc : Nat} (failed : step session = .error fault after)
    (invalid : fault.cause = .invalidOpcode pc) :
    pc = session.state.pc ∧ session.state.pc < session.state.codeSize ∧
      ∃ word, session.state.cell? session.state.pc = some (.code (some word)) ∧
        (Instruction.decode word).operation = .data := by
  rcases refuses_or_fails_of_step failed (by rw [invalid]; exact id) with
    ⟨asked, -, refuses⟩ | ⟨word, inCode, held, fails⟩
  · rw [invalid] at refuses
    cases refuses
  · rw [invalid] at fails
    obtain ⟨address, isData⟩ := fails.data_of_invalidOpcode
    exact ⟨address, inCode, word, held, isData⟩

end Session

end MiniatureMachine
