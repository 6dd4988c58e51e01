import MiniatureMachine.Machine.Debugger
import MiniatureMachine.Machine.Dump
import MiniatureMachine.Machine.Execution

/-!
Contract: a machine at work: fetching, debugging, tracing and executing.

Owns:
- a session, which joins the machine's state, the console and the debugger;
- the question whether to debug, the debugger's dialogue and the trace;
- one step of a session.

A step asks the pending question, looks at the interrupt flag, fetches, lets the
operator debug, traces, executes and counts. Any of these can fault, and the
session keeps what was done before the fault. Only a fault of the execution
itself carries the context of the instruction.
-/

namespace MiniatureMachine

/-- Whether a run starts in the debugger. -/
inductive DebugChoice where
  | enabled
  | disabled
  /-- The operator is asked before the first instruction. -/
  | ask
deriving DecidableEq, Repr

structure SessionOptions where
  debug : DebugChoice
  /-- Whether a trace also shows the instruction that follows. -/
  showNext : Bool
deriving DecidableEq, Repr

structure Session where
  state : State
  console : Console
  debugger : Debugger
  /-- Whether a trace also shows the instruction that follows. -/
  showNext : Bool
  /-- Whether the operator still has to be asked about debugging. -/
  questionPending : Bool
  /-- The number of instructions that have retired. -/
  steps : Nat
deriving DecidableEq, Repr

/-- How a step ended when it did not fault. -/
inductive StepOutcome where
  | retired
  | halted
deriving DecidableEq, Repr

abbrev Phase := EStateM Fault Session

namespace Session

def start (image : Image) (options : SessionOptions) (console : Console) : Session :=
  { state := State.ofImage image
    console := console
    debugger := if options.debug = .enabled then .enabled else .disabled
    showNext := options.showNext
    questionPending := decide (options.debug = .ask)
    steps := 0 }

/-! ## Parts of a step -/

/-- Lets a dialogue work on the console. Its faults have no context. -/
def converse {α : Type} (dialogue : Dialogue α) : Phase α := fun session =>
  match dialogue session.console with
  | .ok value console => .ok value { session with console := console }
  | .error cause console => .error (.bare cause) { session with console := console }

def debugQuestion : String :=
  "Enter debugging mode? "

def isAffirmative (answer : String) : Bool :=
  let startsWith (word : String) : Bool := word.toList.isPrefixOf answer.toList
  startsWith "y" || answer == "t" || ["indeed", "true", "affirmative"].any startsWith

/-- Asks the pending question. It stays pending when there is no answer. -/
def askAboutDebugging : Phase Unit := do
  if (← get).questionPending then
    let answer ← converse (Console.promptLine debugQuestion)
    modify fun session =>
      { session with
        debugger := if isAffirmative answer then .enabled else session.debugger
        questionPending := false }

/-- Takes the word at the program counter and moves the counter behind it. -/
def fetch : Phase (Nat × Word) := do
  let session ← get
  let pc := session.state.pc
  if session.console.interrupted then
    throw (.bare .interrupted)
  else if session.state.codeSize ≤ pc then
    throw (.bare (.memoryOutOfBounds pc))
  else
    match session.state.cell? pc with
    | some (.code (some word)) =>
        set { session with state := { session.state with pc := pc + 1 } }
        return (pc, word)
    | _ => throw (.bare (.badInstruction pc))

/-- What a command shows or says before it takes effect. -/
def respond (state : State) : DebugCommand → Dialogue Unit
  | .dump => Console.write (Dump.memory state)
  | .print => Console.writeLine (Dump.registers state)
  | .help => Console.writeLine Debugger.helpText
  | .run => Console.writeLine "Continuing program..."
  | .continue | .quit | .step => pure ()

theorem script_converse {α : Type} {dialogue : Dialogue α} {value : α}
    {session after : Session} (conversed : converse dialogue session = .ok value after) :
    dialogue session.console = .ok value after.console := by
  unfold converse at conversed
  split at conversed
  · rename_i held
    cases conversed
    exact held
  · cases conversed

/-- A response leaves the script as it is. -/
theorem script_respond {state : State} {command : DebugCommand} {console after : Console}
    (responded : respond state command console = .ok () after) :
    after.script = console.script := by
  cases command <;> simp only [respond] at responded
  case dump => exact Console.script_write responded
  case print => exact Console.script_writeLine responded
  case help => exact Console.script_writeLine responded
  case run => exact Console.script_writeLine responded
  all_goals
    cases responded
    rfl

/-- Takes commands for as long as the debugger is paused. -/
def takeCommands (session : Session) : EStateM.Result Fault Session Unit :=
  if session.debugger.wantsCommand then
    match _asked : converse (Console.promptLine Debugger.commandPrompt) session with
    | .error fault after => .error fault after
    | .ok line asked =>
        let command := DebugCommand.parse line
        match _shown : converse (respond asked.state command) asked with
        | .error fault after => .error fault after
        | .ok () shown =>
            let obeyed := { shown with debugger := shown.debugger.apply command }
            if command = .quit then .error (.bare .aborted) obeyed else takeCommands obeyed
  else
    .ok () session
termination_by session.console.script.length
decreasing_by
  rw [Console.script_promptLine (script_converse _asked),
    ← script_respond (script_converse _shown)]
  simp

/-- The trace of an instruction: its context and, if wanted, the instruction at
the program counter. -/
def traceText (session : Session) (pc : Nat) (word : Word) : String :=
  let next := session.state.pc
  "\n" ++ (FaultContext.ofWord pc word).text ++ "\n" ++
    (if session.showNext then
      s!"  Next Target: {next}\n" ++
        "  Next Instruction: " ++ session.state.disassemblyAt next ++ " \n"
    else "")

def trace (pc : Nat) (word : Word) : Phase Unit := do
  let session ← get
  if session.debugger.tracing then
    converse (Console.writeLine (traceText session pc word))

/-- Executes an instruction. A fault carries its context. -/
def perform (pc : Nat) (word : Word) : Phase Unit := fun session =>
  match (Instruction.decode word).execute pc ⟨session.state, session.console⟩ with
  | .ok () bench =>
      .ok () { session with state := bench.state, console := bench.console }
  | .error cause bench =>
      .error ⟨cause, some (FaultContext.ofWord pc word)⟩
        { session with state := bench.state, console := bench.console }

/-- Counts an instruction and tells the debugger that it is done. -/
def retire (session : Session) : Session :=
  { session with
    state := session.state.clearRegisterZero
    steps := session.steps + 1
    debugger := session.debugger.finishStep }

/-- Says how the step ended. A traced halt is announced. -/
def conclude : Phase StepOutcome := do
  let session ← get
  if session.state.halted then
    if session.debugger.tracing then
      converse (Console.writeLine "halt\n")
    return .halted
  else
    return .retired

/-- One step. A halted machine stays as it is. -/
def step : Phase StepOutcome := do
  if (← get).state.halted then
    return .halted
  else
    askAboutDebugging
    let fetched ← fetch
    takeCommands
    trace fetched.1 fetched.2
    perform fetched.1 fetched.2
    modify retire
    conclude

end Session

end MiniatureMachine
