import MiniatureMachine.Proofs.Machine.Invariant
import MiniatureMachine.Proofs.Machine.PrintedFault
import MiniatureMachine.Proofs.Machine.Unattended

/-!
Contract: the protocol between the debugger and its operator over a whole run.

Owns:
- the prompts of a step and the commands that are given at them;
- the debugger that a history of commands leaves between two steps;
- what a step of a debugged session asks, takes, traces and leaves.

Within a step the debugger goes through more modes than it has between two steps. So the
commands are applied one after the other first, and what has become of the debugger is looked
at when the step has finished.
-/

namespace MiniatureMachine

open Effects

/-! ## The debugger between two steps -/

namespace Debugger

/-- The debugger between two steps, when these commands have been given. -/
def following (given : List DebugCommand) : Debugger :=
  { mode := if .continue ∈ given ∨ .run ∈ given then .runningToCompletion else .paused
    tracing := decide (.run ∉ given) }

variable {given commands : List DebugCommand} {debugger : Debugger}

private theorem wantsCommand_following :
    (following given).wantsCommand = true ↔ .continue ∉ given ∧ .run ∉ given := by
  unfold wantsCommand following
  by_cases told : .continue ∈ given ∨ .run ∈ given
  · rw [if_pos told]
    exact iff_of_false Bool.false_ne_true fun untold => told.elim untold.1 untold.2
  · rw [if_neg told]
    exact iff_of_true rfl (not_or.mp told)

private theorem following_cases (given : List DebugCommand) :
    following given ∈ [⟨.paused, true⟩, ⟨.runningToCompletion, true⟩,
      (⟨.runningToCompletion, false⟩ : Debugger)] := by
  unfold following
  by_cases told : .run ∈ given
  · simp [told]
  · by_cases continued : .continue ∈ given <;> simp [told, continued]

private theorem mode_following (given : List DebugCommand) :
    (following given).mode ≠ .terminated := by
  unfold following
  split <;> exact nofun

private theorem apply_of_isInspection {command : DebugCommand}
    (inspects : command.isInspection = true)
    (debugger : Debugger) : debugger.apply command = debugger := by
  cases command with
  | dump | print | help => rfl
  | _ => cases inspects

/-- After any other command the debugger does not ask for one more. -/
theorem wantsCommand_apply {command : DebugCommand} (acts : command.isInspection = false)
    (debugger : Debugger) : (debugger.apply command).wantsCommand = false := by
  cases command with
  | dump | print | help => cases acts
  | _ => rfl

private theorem mode_apply {command : DebugCommand} (goesOn : command ≠ .quit)
    (alive : debugger.mode ≠ .terminated) : (debugger.apply command).mode ≠ .terminated := by
  cases command with
  | quit => exact absurd rfl goesOn
  | dump | print | help => exact alive
  | «continue» | run | step => exact nofun

private theorem foldl_apply_inspections
    (inspections : ∀ command ∈ commands, command.isInspection = true) :
    commands.foldl apply debugger = debugger := by
  induction commands with
  | nil => rfl
  | cons command commands inductionHypothesis =>
      obtain ⟨first, others⟩ := List.forall_mem_cons.mp inspections
      rw [List.foldl_cons, apply_of_isInspection first]
      exact inductionHypothesis others

private theorem tracing_foldl_apply (commands : List DebugCommand) (debugger : Debugger) :
    (commands.foldl apply debugger).tracing = (debugger.tracing && decide (.run ∉ commands)) := by
  induction commands generalizing debugger with
  | nil => simp
  | cons command commands inductionHypothesis =>
      rw [List.foldl_cons, inductionHypothesis]
      cases command <;> simp [apply]

/-- Commands up to the first one that is no inspection lead to the debugger of the next
step. -/
theorem following_append {last : DebugCommand}
    (untold : (following given).wantsCommand = true)
    (inspections : ∀ command ∈ commands, command.isInspection = true)
    (acts : last.isInspection = false) (goesOn : last ≠ .quit) :
    ((commands ++ [last]).foldl apply (following given)).finishStep =
      following (given ++ (commands ++ [last])) := by
  obtain ⟨noContinue, noRun⟩ := wantsCommand_following.mp untold
  have noAction : ∀ command : DebugCommand, command.isInspection = false → command ∉ commands :=
    fun command acts member => by simp [inspections command member] at acts
  have continued := noAction .continue rfl
  have ran := noAction .run rfl
  rw [List.foldl_append, foldl_apply_inspections inspections]
  cases last with
  | dump | print | help => cases acts
  | quit => exact absurd rfl goesOn
  | «continue» | run | step =>
      simp [following, apply, finishStep, noContinue, noRun, continued, ran]

private theorem finishStep_following (told : (following given).wantsCommand = false) :
    (following given).finishStep = following given := by
  unfold following at told ⊢
  split at told
  · rename_i running
    simp [finishStep, running]
  · cases told

end Debugger

/-! ## Prompts -/

/-- The causes for which a prompt obtains no line, or what a command shows is not written. -/
def FaultCause.EndsPrompts : FaultCause → Prop
  | .endOfInput | .interrupted | .console _ => True
  | _ => False

namespace Console

private theorem output_write {text : String} {console after : Console}
    (written : write text console = .ok () after) : after.output = console.output ++ text := by
  unfold write at written
  split at written
  · cases written
  · cases written
    rfl

private theorem output_writeLine {text : String} {console after : Console}
    (written : writeLine text console = .ok () after) :
    after.output = console.output ++ (text ++ "\n") := by
  obtain ⟨_, middle, first, second⟩ := bind_eq_ok_iff.mp written
  rw [output_write second, output_write first, String.append_assoc]

private theorem endsPrompts_of_promptLine {text : String} {before after : Console}
    {cause : FaultCause} (failed : promptLine text before = .error cause after) :
    cause.EndsPrompts := by
  rcases bind_eq_error_iff.mp failed with unprompted | ⟨reply, middle, -, refused⟩
  · rcases bind_eq_error_iff.mp unprompted with unwritten | ⟨_, middle, -, unread⟩
    · obtain ⟨failure, rfl⟩ := write_eq_error unwritten
      trivial
    · unfold readLine at unread
      split at unread
      · cases unread
        trivial
      · split at unread <;> cases unread
  · cases reply <;> cases refused <;> trivial

end Console

namespace Session

private theorem endsPrompts_of_respond {state : State} {command : DebugCommand}
    {before after : Console}
    {cause : FaultCause} (failed : respond state command before = .error cause after) :
    cause.EndsPrompts := by
  have unwritten : ∃ failure, cause = .console failure := by
    cases command with
    | dump => exact Console.write_eq_error failed
    | print | help | run => exact Console.writeLine_eq_error failed
    | «continue» | quit | step => cases failed
  obtain ⟨failure, rfl⟩ := unwritten
  trivial

theorem debugger_ignoresConsole : IgnoresConsole Session.debugger :=
  fun _ _ => rfl

theorem keeps_debugger_converse {α : Type} (dialogue : Dialogue α) :
    Keeps Session.debugger (converse dialogue) :=
  keeps_converse debugger_ignoresConsole dialogue

/-- The prompts of the debugger in a session that has fetched: of each, the line that it
obtains or the fault that it ends with. -/
def prompts (session : Session) : List (Except Fault String) :=
  if session.debugger.wantsCommand then
    match _asked : converse (Console.promptLine Debugger.commandPrompt) session with
    | .error fault _ => [.error fault]
    | .ok line asked =>
        let command := DebugCommand.parse line
        .ok line ::
          match _shown : converse (respond asked.state command) asked with
          | .error _ _ => []
          | .ok () shown =>
              if command = .quit then []
              else prompts { shown with debugger := shown.debugger.apply command }
  else
    []
termination_by session.console.script.length
decreasing_by
  rw [Console.script_promptLine (script_converse _asked),
    ← script_respond (script_converse _shown)]
  simp

def commandsOf (prompts : List (Except Fault String)) : List DebugCommand :=
  prompts.filterMap fun prompt => prompt.toOption.map DebugCommand.parse

/-- The prompts of a session, and the result that they lead to. -/
inductive Commanded :
    Session → List (Except Fault String) → EStateM.Result Fault Session Unit → Prop
  | resting {session : Session} (rests : session.debugger.wantsCommand = false) :
      Commanded session [] (.ok () session)
  | unanswered {session after : Session} {fault : Fault}
      (wants : session.debugger.wantsCommand = true)
      (asked : converse (Console.promptLine Debugger.commandPrompt) session =
        .error fault after) :
      Commanded session [.error fault] (.error fault after)
  | unshown {session asked after : Session} {line : String} {fault : Fault}
      (wants : session.debugger.wantsCommand = true)
      (obtained : converse (Console.promptLine Debugger.commandPrompt) session = .ok line asked)
      (failed : converse (respond asked.state (DebugCommand.parse line)) asked =
        .error fault after) :
      Commanded session [.ok line] (.error fault after)
  | quits {session asked shown : Session} {line : String}
      (wants : session.debugger.wantsCommand = true)
      (obtained : converse (Console.promptLine Debugger.commandPrompt) session = .ok line asked)
      (responded : converse (respond asked.state (DebugCommand.parse line)) asked = .ok () shown)
      (quit : DebugCommand.parse line = .quit) :
      Commanded session [.ok line]
        (.error (.bare .aborted)
          { shown with debugger := shown.debugger.apply (DebugCommand.parse line) })
  | obeyed {session asked shown : Session} {line : String} {later : List (Except Fault String)}
      {result : EStateM.Result Fault Session Unit}
      (wants : session.debugger.wantsCommand = true)
      (obtained : converse (Console.promptLine Debugger.commandPrompt) session = .ok line asked)
      (responded : converse (respond asked.state (DebugCommand.parse line)) asked = .ok () shown)
      (goesOn : DebugCommand.parse line ≠ .quit)
      (commanded : Commanded
        { shown with debugger := shown.debugger.apply (DebugCommand.parse line) } later result) :
      Commanded session (.ok line :: later) result

theorem prompts_eq (session : Session) :
    prompts session =
      if session.debugger.wantsCommand then
        match converse (Console.promptLine Debugger.commandPrompt) session with
        | .error fault _ => [.error fault]
        | .ok line asked =>
            .ok line ::
              match converse (respond asked.state (DebugCommand.parse line)) asked with
              | .error _ _ => []
              | .ok () shown =>
                  if DebugCommand.parse line = .quit then []
                  else prompts
                    { shown with debugger := shown.debugger.apply (DebugCommand.parse line) }
      else [] := by
  rw [prompts]
  split
  · split
    · rename_i asked
      rw [asked]
    · rename_i line asked prompted
      rw [prompted]
      dsimp only
      split
      · rename_i shown
        rw [shown]
      · rename_i shown responded
        rw [responded]
  · rfl

/-- The result that the prompts lead to is that of taking commands. -/
theorem commanded (session : Session) :
    Commanded session (prompts session) (takeCommands session) := by
  fun_induction takeCommands session with
  | case1 session wants fault after asked =>
      rw [prompts_eq, if_pos wants, asked]
      exact .unanswered wants asked
  | case2 session wants line asked prompted command fault after shown =>
      rw [prompts_eq, if_pos wants, prompted]
      dsimp only
      rw [shown]
      exact .unshown wants prompted shown
  | case3 session wants line asked prompted command shown responded obeyed quits =>
      rw [prompts_eq, if_pos wants, prompted]
      dsimp only
      rw [responded]
      dsimp only
      rw [if_pos quits]
      exact .quits wants prompted responded quits
  | case4 session wants line asked prompted command shown responded obeyed goesOn
      inductionHypothesis =>
      rw [prompts_eq, if_pos wants, prompted]
      dsimp only
      rw [responded]
      dsimp only
      rw [if_neg goesOn]
      exact .obeyed wants prompted responded goesOn inductionHypothesis
  | case5 session resting =>
      rw [prompts_eq, if_neg resting]
      exact .resting (Bool.eq_false_iff.mpr resting)

section Commands

variable {session obeyed : Session} {prompts : List (Except Fault String)}
  {result : EStateM.Result Fault Session Unit}

theorem Commanded.of_resting (commanded : Commanded session prompts result)
    (rests : session.debugger.wantsCommand = false) :
    prompts = [] ∧ result = .ok () session := by
  cases commanded with
  | resting => exact ⟨rfl, rfl⟩
  | unanswered wants | unshown wants | quits wants | obeyed wants => cases wants.symm.trans rests

private theorem Commanded.ne_nil_iff (commanded : Commanded session prompts result) :
    prompts ≠ [] ↔ session.debugger.wantsCommand = true := by
  cases commanded with
  | resting rests => exact iff_of_false (not_not.mpr rfl) (Bool.eq_false_iff.mp rests)
  | unanswered wants | unshown wants | quits wants | obeyed wants =>
      exact iff_of_true (List.cons_ne_nil _ _) wants

/-- Prompts go on up to the first line that is no inspection, and take these lines off the
script, unless a prompt ends them. -/
theorem Commanded.obtains (commanded : Commanded session prompts result)
    (wants : session.debugger.wantsCommand = true) :
    (∃ inspections last, prompts = (inspections ++ [last]).map .ok ∧
        (∀ line ∈ inspections, (DebugCommand.parse line).isInspection = true) ∧
        (DebugCommand.parse last).isInspection = false ∧
        session.console.script =
          (inspections ++ [last]).map .line ++ (left result).console.script) ∨
      ∃ fault after, result = .error fault after ∧ fault.cause.EndsPrompts := by
  induction commanded with
  | resting rests => cases rests.symm.trans wants
  | unanswered _ asked =>
      obtain ⟨cause, console, unobtained, rfl⟩ := converse_eq_error asked
      exact .inr ⟨_, _, rfl, Console.endsPrompts_of_promptLine unobtained⟩
  | unshown _ obtained failed =>
      obtain ⟨cause, console, unwritten, rfl⟩ := converse_eq_error failed
      exact .inr ⟨_, _, rfl, endsPrompts_of_respond unwritten⟩
  | @quits session asked shown line _ obtained responded quit =>
      refine .inl ⟨[], line, rfl, nofun, by rw [quit]; rfl, ?_⟩
      rw [Console.script_promptLine (script_converse obtained),
        ← script_respond (script_converse responded)]
      rfl
  | @obeyed session asked shown line later result _ obtained responded goesOn commanded
      inductionHypothesis =>
      have script : session.console.script = .line line :: shown.console.script := by
        rw [Console.script_promptLine (script_converse obtained),
          ← script_respond (script_converse responded)]
      cases inspects : (DebugCommand.parse line).isInspection with
      | false =>
          obtain ⟨rfl, rfl⟩ := commanded.of_resting (Debugger.wantsCommand_apply inspects _)
          exact .inl ⟨[], line, rfl, nofun, inspects, script⟩
      | true =>
          have same : shown.debugger.apply (DebugCommand.parse line) = session.debugger := by
            rw [Debugger.apply_of_isInspection inspects,
              (keeps_debugger_converse _).of_ok responded,
              (keeps_debugger_converse _).of_ok obtained]
          rcases inductionHypothesis (same ▸ wants) with
            ⟨inspections, last, rfl, areInspections, acts, taken⟩ | ends
          · refine .inl ⟨line :: inspections, last, rfl, ?_, acts, ?_⟩
            · exact List.forall_mem_cons.mpr ⟨inspects, areInspections⟩
            · exact script.trans (congrArg (Entry.line line :: ·) taken)
          · exact .inr ends

/-- The commands are applied to the debugger one after the other. -/
theorem Commanded.debugger_eq (commanded : Commanded session prompts (.ok () obeyed)) :
    obeyed.debugger = (commandsOf prompts).foldl Debugger.apply session.debugger := by
  generalize found : EStateM.Result.ok () obeyed = result at commanded
  induction commanded with
  | resting rests =>
      cases found
      rfl
  | unanswered | unshown | quits => cases found
  | obeyed wants obtained responded goesOn commanded inductionHypothesis =>
      rw [inductionHypothesis found, (keeps_debugger_converse _).of_ok responded,
        (keeps_debugger_converse _).of_ok obtained]
      rfl

/-- A quit, and nothing else, terminates the debugger. -/
theorem Commanded.terminated_iff (commanded : Commanded session prompts result)
    (alive : session.debugger.mode ≠ .terminated) :
    (left result).debugger.mode = .terminated ↔ .quit ∈ commandsOf prompts := by
  induction commanded with
  | resting rests => exact iff_of_false alive List.not_mem_nil
  | unanswered wants asked =>
      rw [left_error, (keeps_debugger_converse _).of_error asked]
      exact iff_of_false alive List.not_mem_nil
  | unshown wants obtained failed =>
      rw [left_error, (keeps_debugger_converse _).of_error failed,
        (keeps_debugger_converse _).of_ok obtained]
      refine iff_of_false alive fun given => ?_
      -- A quit shows nothing, so nothing of it can fail.
      rw [← List.mem_singleton.mp given] at failed
      cases failed
  | quits wants obtained responded quit =>
      rw [left_error, quit]
      exact iff_of_true rfl (List.mem_singleton.mpr quit.symm)
  | obeyed wants obtained responded goesOn commanded inductionHypothesis =>
      have same := ((keeps_debugger_converse _).of_ok responded).trans
        ((keeps_debugger_converse _).of_ok obtained)
      rw [inductionHypothesis (Debugger.mode_apply goesOn (same ▸ alive))]
      exact (List.mem_cons.trans (or_iff_right (Ne.symm goesOn))).symm

theorem Commanded.aborts (commanded : Commanded session prompts result)
    (given : .quit ∈ commandsOf prompts) : ∃ after, result = .error (.bare .aborted) after := by
  induction commanded with
  | resting | unanswered => cases given
  | unshown wants obtained failed =>
      rw [← List.mem_singleton.mp given] at failed
      cases failed
  | quits => exact ⟨_, rfl⟩
  | obeyed wants obtained responded goesOn commanded inductionHypothesis =>
      exact inductionHypothesis ((List.mem_cons.mp given).resolve_left (Ne.symm goesOn))

end Commands

/-! ## Traces -/

/-- The lines of a trace: behind an empty one those of the context, and if wanted the
instruction that is next. -/
def traceLines (session : Session) (context : FaultContext) : List String :=
  "" :: context.lines ++
    if session.showNext then
      [s!"  Next Target: {session.state.pc}",
        s!"  Next Instruction: {session.state.disassemblyAt session.state.pc} "]
    else []

/-- A trace is printed line by line. -/
theorem traceText_eq (session : Session) (pc : Nat) (word : Word) :
    traceText session pc word =
      String.join ((session.traceLines (.ofWord pc word)).map (· ++ "\n")) := by
  have shown := (FaultContext.ofWord pc word).text_append_newline
  unfold traceText traceLines
  cases session.showNext with
  | true =>
      simp only [if_true, List.cons_append, List.map_cons, List.map_append, List.map_nil,
        String.join_cons, String.join_append, String.join_nil, String.append_assoc,
        String.append_empty, String.empty_append, ← shown]
      rfl
  | false =>
      simp only [Bool.false_eq_true, if_false, List.append_nil, List.map_cons, String.join_cons,
        String.append_assoc, String.append_empty, String.empty_append, ← shown]

/-! ## A step behind its prompts -/

def finish (entry : Nat × Word) : Phase StepOutcome := do
  trace entry.1 entry.2
  perform entry.1 entry.2
  modify retire
  conclude

section Steps

variable {session fetched obeyed after : Session} {entry : Nat × Word} {outcome : StepOutcome}

theorem step_of_answered (running : session.state.halted = false)
    (answered : session.questionPending = false) :
    step session =
      (fetch >>= fun entry => takeCommands >>= fun _ => finish entry) session := by
  unfold step
  rw [get_bind, running]
  simp only [Bool.false_eq_true, if_false]
  rw [bind_of_ok (askAboutDebugging_of_answered answered)]
  rfl

theorem step_of_fetched (running : session.state.halted = false)
    (answered : session.questionPending = false)
    (fetching : fetch session = .ok entry fetched) :
    step session = (takeCommands >>= fun _ => finish entry) fetched := by
  rw [step_of_answered running answered, bind_of_ok fetching]

private theorem prepare_of_fetched (answered : session.questionPending = false)
    (fetching : fetch session = .ok entry fetched) :
    prepare session =
      (takeCommands >>= fun _ => trace entry.1 entry.2 >>= fun _ => pure entry) fetched := by
  unfold prepare
  rw [bind_of_ok (askAboutDebugging_of_answered answered), bind_of_ok fetching]

/-- The end of a step tells the debugger, and does nothing else to it. -/
theorem debugger_of_finish (finished : finish entry obeyed = .ok outcome after) :
    after.debugger = obeyed.debugger.finishStep := by
  have performs : Keeps Session.debugger (perform entry.1 entry.2) :=
    keeps_perform (fun _ _ _ => rfl) _ _
  obtain ⟨_, traced, tracing, finished⟩ := bind_eq_ok_iff.mp finished
  obtain ⟨_, performed, executed, finished⟩ := bind_eq_ok_iff.mp finished
  obtain ⟨_, retired, ⟨⟩, concluded⟩ := bind_eq_ok_iff.mp finished
  rw [(keeps_conclude debugger_ignoresConsole).of_ok concluded, retire, performs.of_ok executed,
    (keeps_trace debugger_ignoresConsole _ _).of_ok tracing]

/-- Behind the prompts, nothing terminates the debugger. -/
theorem keeps_terminated_finish (entry : Nat × Word) :
    Keeps (fun session => decide (session.debugger.mode = .terminated)) (finish entry) := by
  refine (keeps_trace (fun _ _ => rfl) _ _).bind fun _ => ?_
  refine (keeps_perform (fun _ _ _ => rfl) _ _).bind fun _ => ?_
  refine Keeps.bind (.modify fun before => ?_) fun _ => keeps_conclude fun _ _ => rfl
  unfold retire Debugger.finishStep
  dsimp only
  split
  · rename_i stepping
    rw [stepping]
    rfl
  · rfl

private theorem keeps_questionPending_finish (entry : Nat × Word) :
    Keeps Session.questionPending (finish entry) := by
  refine (keeps_trace (fun _ _ => rfl) _ _).bind fun _ => ?_
  refine (keeps_perform (fun _ _ _ => rfl) _ _).bind fun _ => ?_
  exact Keeps.bind (.modify fun _ => rfl) fun _ => keeps_conclude fun _ _ => rfl

/-- The trace of an executed instruction is written if the debugger traces. -/
theorem output_of_trace {pc : Nat} {word : Word} {ready : Session}
    (traced : trace pc word obeyed = .ok () ready) :
    ready.console.output = obeyed.console.output ++
      if obeyed.debugger.tracing then traceText obeyed pc word ++ "\n" else "" := by
  unfold trace at traced
  rw [get_bind] at traced
  split at traced
  · rename_i tracing
    rw [if_pos tracing]
    exact Console.output_writeLine (script_converse traced)
  · rename_i untraced
    rw [if_neg untraced]
    cases traced
    exact String.append_empty.symm

end Steps

/-! ## Runs in the debugger -/

/-- The commands that are given at the prompts of the next step. -/
def commandsGiven (session : Session) : List DebugCommand :=
  if session.state.halted then []
  else
    match fetch session with
    | .ok _ fetched => commandsOf (prompts fetched)
    | .error _ _ => []

/-- The sessions of a machine that is started in the debugger, as long as its steps do not
fault, with all commands that have been given until then. Between two steps the host may
replace the console. -/
inductive Debugged (image : Image) (showNext : Bool) : List DebugCommand → Session → Prop
  | start (console : Console) :
      Debugged image showNext [] (start image ⟨.enabled, showNext⟩ console)
  | host {given : List DebugCommand} {session : Session}
      (debugged : Debugged image showNext given session) (console : Console) :
      Debugged image showNext given { session with console := console }
  | step {given : List DebugCommand} {session after : Session} {outcome : StepOutcome}
      (debugged : Debugged image showNext given session)
      (stepped : Session.step session = .ok outcome after) :
      Debugged image showNext (given ++ session.commandsGiven) after

/-- Every reachable session of a debugged machine has a history of commands. -/
theorem Reachable.exists_debugged {image : Image} {showNext : Bool} {session : Session}
    (reached : Reachable image ⟨.enabled, showNext⟩ session) :
    ∃ given, Debugged image showNext given session := by
  induction reached with
  | start console => exact ⟨[], .start console⟩
  | host reached console inductionHypothesis =>
      obtain ⟨given, debugged⟩ := inductionHypothesis
      exact ⟨given, debugged.host console⟩
  | step reached stepped inductionHypothesis =>
      obtain ⟨given, debugged⟩ := inductionHypothesis
      exact ⟨_, debugged.step stepped⟩

section Protocol

variable {image : Image} {showNext : Bool} {given : List DebugCommand}
  {session fetched obeyed after : Session} {entry : Nat × Word} {outcome : StepOutcome}

theorem commandsGiven_of_fetched (running : session.state.halted = false)
    (fetching : fetch session = .ok entry fetched) :
    session.commandsGiven = commandsOf (prompts fetched) := by
  rw [commandsGiven, running, fetching]
  rfl

private theorem commandsOf_map_ok (lines : List String) :
    commandsOf (lines.map .ok) = lines.map DebugCommand.parse := by
  unfold commandsOf
  rw [List.filterMap_map]
  exact congrFun (List.filterMap_eq_map) lines

/-- Taking commands leads from the debugger between two steps to the next one. -/
theorem following_of_takeCommands (follows : fetched.debugger = .following given)
    (commanding : takeCommands fetched = .ok () obeyed) :
    obeyed.debugger.finishStep = .following (given ++ commandsOf (prompts fetched)) := by
  have commanded := commanding ▸ commanded fetched
  cases wants : fetched.debugger.wantsCommand with
  | false =>
      obtain ⟨unprompted, same⟩ := commanded.of_resting wants
      cases same
      rw [unprompted, follows, Debugger.finishStep_following (follows ▸ wants)]
      exact congrArg _ (List.append_nil _).symm
  | true =>
      rcases commanded.obtains wants with
        ⟨inspections, last, obtained, areInspections, acts, -⟩ | ⟨fault, after, ⟨⟩, -⟩
      have goesOn : DebugCommand.parse last ≠ .quit := by
        intro quit
        have given : .quit ∈ commandsOf (prompts fetched) := by
          rw [obtained, commandsOf_map_ok, List.map_append]
          exact List.mem_append_right _ (List.mem_singleton.mpr quit.symm)
        obtain ⟨after, ⟨⟩⟩ := commanded.aborts given
      rw [commanded.debugger_eq, follows, obtained, commandsOf_map_ok, List.map_append]
      exact Debugger.following_append (follows ▸ wants) (List.forall_mem_map.mpr areInspections)
        acts goesOn

theorem debugger_of_fetch (fetching : fetch session = .ok entry fetched) :
    fetched.debugger = session.debugger := by
  obtain ⟨-, -, -, -, rfl⟩ := fetch_eq_ok fetching
  rfl

/-- Between two steps, the commands that were given determine the debugger, and nothing is to
be asked. -/
theorem Debugged.follows (debugged : Debugged image showNext given session) :
    session.debugger = .following given ∧ session.questionPending = false := by
  induction debugged with
  | start console => exact ⟨rfl, rfl⟩
  | host debugged console inductionHypothesis => exact inductionHypothesis
  | @step given session after outcome debugged stepped inductionHypothesis =>
      obtain ⟨follows, answered⟩ := inductionHypothesis
      by_cases halted : session.state.halted = true
      · rw [step_of_halted halted] at stepped
        cases stepped
        rw [commandsGiven, if_pos halted, List.append_nil]
        exact ⟨follows, answered⟩
      · have running := Bool.not_eq_true _ ▸ halted
        rw [step_of_answered running answered] at stepped
        obtain ⟨entry, fetched, fetching, stepped⟩ := bind_eq_ok_iff.mp stepped
        obtain ⟨_, obeyed, commanding, finished⟩ := bind_eq_ok_iff.mp stepped
        refine ⟨?_, ?_⟩
        · rw [debugger_of_finish finished, commandsGiven_of_fetched running fetching]
          exact following_of_takeCommands ((debugger_of_fetch fetching).trans follows) commanding
        · have takes : Keeps Session.questionPending takeCommands :=
            keeps_takeCommands fun _ _ _ => rfl
          rw [(keeps_questionPending_finish entry).of_ok finished, takes.of_ok commanding]
          obtain ⟨-, -, -, -, rfl⟩ := fetch_eq_ok fetching
          exact answered

theorem Debugged.terminated_iff (debugged : Debugged image showNext given session) :
    (left (Session.step session)).debugger.mode = .terminated ↔ .quit ∈ session.commandsGiven := by
  obtain ⟨follows, answered⟩ := debugged.follows
  have alive : session.debugger.mode ≠ .terminated := follows ▸ Debugger.mode_following given
  by_cases halted : session.state.halted = true
  · rw [step_of_halted halted, commandsGiven, if_pos halted]
    exact iff_of_false alive List.not_mem_nil
  · have running := Bool.not_eq_true _ ▸ halted
    cases fetching : fetch session with
    | error fault stopped =>
        have failed : Session.step session = .error fault stopped := by
          rw [step_of_answered running answered]
          exact bind_eq_error_iff.mpr (.inl fetching)
        obtain ⟨rfl, -⟩ := fetch_eq_error fetching
        rw [failed, commandsGiven, if_neg halted, fetching]
        exact iff_of_false alive List.not_mem_nil
    | ok entry fetched =>
        rw [commandsGiven_of_fetched running fetching, step_of_fetched running answered fetching,
          ← (commanded fetched).terminated_iff (debugger_of_fetch fetching ▸ alive)]
        cases commanding : takeCommands fetched with
        | error fault stopped => rw [bind_eq_error_iff.mpr (.inl commanding)]; rfl
        | ok _ obeyed =>
            rw [bind_of_ok commanding]
            exact decide_eq_decide.mp (keeps_terminated_finish entry obeyed)

/-- A quit ends the step before its instruction. -/
theorem Debugged.aborts (debugged : Debugged image showNext given session)
    (quit : .quit ∈ session.commandsGiven) :
    ∃ after, Session.step session = .error (.bare .aborted) after ∧
      FailsIn session (.bare .aborted) after .commands := by
  obtain ⟨follows, answered⟩ := debugged.follows
  unfold commandsGiven at quit
  split at quit
  · cases quit
  · rename_i running
    split at quit
    · rename_i entry fetched fetching
      obtain ⟨after, uncommanded⟩ := (commanded fetched).aborts quit
      refine ⟨after, ?_, .commands (askAboutDebugging_of_answered answered) fetching uncommanded⟩
      rw [step_of_fetched (Bool.not_eq_true _ ▸ running) answered fetching]
      exact bind_eq_error_iff.mpr (.inl uncommanded)
    · cases quit

/-- What a step does with the prompts and the trace that fetches a word, after commands that
were given in earlier steps. -/
structure FollowsProtocol (given : List DebugCommand) (session fetched : Session)
    (entry : Nat × Word) : Prop where
  commanded : Commanded fetched (prompts fetched) (takeCommands fetched)
  prompts_iff : prompts fetched ≠ [] ↔ .continue ∉ given ∧ .run ∉ given
  unprompted : prompts fetched = [] → takeCommands fetched = .ok () fetched
  /-- The lines up to the first one that is no inspection are taken off the script, unless the
  operator or the console ends the step before it executes. -/
  obtains : prompts fetched ≠ [] →
    (∃ inspections last, prompts fetched = (inspections ++ [last]).map .ok ∧
      (∀ line ∈ inspections, (DebugCommand.parse line).isInspection = true) ∧
      (DebugCommand.parse last).isInspection = false ∧
      fetched.console.script = (inspections ++ [last]).map .line ++
        (left (takeCommands fetched)).console.script) ∨
    ∃ fault after, step session = .error fault after ∧ FailsIn session fault after .commands ∧
      fault.cause.EndsPrompts
  /-- An instruction that executes is traced unless a run was commanded, before or now. The
  trace has the lines of a context that describes the word. -/
  traces : ∀ ready, prepare session = .ok entry ready →
    ∃ obeyed, takeCommands fetched = .ok () obeyed ∧
      (ready.console.output = obeyed.console.output ++
        if .run ∈ given ++ session.commandsGiven then ""
        else traceText obeyed entry.1 entry.2 ++ "\n") ∧
      ∃ context : FaultContext, context.Describes entry.1 entry.2 ∧
        traceText obeyed entry.1 entry.2 =
          String.join ((obeyed.traceLines context).map (· ++ "\n"))

/-- A step follows the protocol from wherever the steps before it have led. -/
theorem Debugged.followsProtocol (debugged : Debugged image showNext given session)
    (running : session.state.halted = false) (fetching : fetch session = .ok entry fetched) :
    FollowsProtocol given session fetched entry := by
  obtain ⟨follows, answered⟩ := debugged.follows
  have fetchedFollows := (debugger_of_fetch fetching).trans follows
  have commanded := commanded fetched
  have wants := commanded.ne_nil_iff
  refine ⟨commanded, ?_, ?_, fun prompted => ?_, fun ready prepared => ?_⟩
  · rw [wants, fetchedFollows, Debugger.wantsCommand_following]
  · intro unprompted
    exact (commanded.of_resting (Bool.eq_false_iff.mpr fun wanting =>
      wants.mpr wanting unprompted)).2
  · refine (commanded.obtains (wants.mp prompted)).imp_right ?_
    rintro ⟨fault, after, uncommanded, ends⟩
    refine ⟨fault, after, ?_,
      .commands (askAboutDebugging_of_answered answered) fetching uncommanded, ends⟩
    rw [step_of_fetched running answered fetching]
    exact bind_eq_error_iff.mpr (.inl uncommanded)
  · rw [prepare_of_fetched answered fetching] at prepared
    obtain ⟨_, obeyed, commanding, prepared⟩ := bind_eq_ok_iff.mp prepared
    obtain ⟨_, ready, traced, ⟨⟩⟩ := bind_eq_ok_iff.mp prepared
    refine ⟨obeyed, commanding, ?_, _, FaultContext.describes_ofWord .., traceText_eq ..⟩
    rw [commanding] at commanded
    have tracing : obeyed.debugger.tracing = decide (.run ∉ given ++ session.commandsGiven) := by
      rw [commanded.debugger_eq, Debugger.tracing_foldl_apply, fetchedFollows,
        commandsGiven_of_fetched running fetching]
      simp [Debugger.following]
    rw [output_of_trace traced, tracing]
    by_cases told : .run ∈ given ++ session.commandsGiven <;> simp [told]

/-- The protocol of a debugged run. Between two steps, the debugger is in one of three states,
which the commands given until then determine. A step that fetches a word prompts for as long
as there was no continue and no run, takes the lines up to the first one that is no
inspection, and traces for as long as there was no run. Only a quit at a prompt terminates the
debugger; then the step is aborted before its instruction executes. -/
theorem debugger_follows_protocol (debugged : Debugged image showNext given session) :
    session.debugger = .following given ∧
      session.debugger ∈ [⟨.paused, true⟩, ⟨.runningToCompletion, true⟩,
        (⟨.runningToCompletion, false⟩ : Debugger)] ∧
      (∀ entry fetched, session.state.halted = false → fetch session = .ok entry fetched →
        FollowsProtocol given session fetched entry) ∧
      ((left (step session)).debugger.mode = .terminated ↔ .quit ∈ session.commandsGiven) ∧
      (.quit ∈ session.commandsGiven →
        ∃ after, step session = .error (.bare .aborted) after ∧
          FailsIn session (.bare .aborted) after .commands ∧
          after.state = session.state.advance ∧ after.steps = session.steps) := by
  obtain ⟨follows, answered⟩ := debugged.follows
  refine ⟨follows, follows ▸ Debugger.following_cases given,
    fun entry fetched => debugged.followsProtocol, debugged.terminated_iff, fun quit => ?_⟩
  obtain ⟨after, aborted, failed⟩ := debugged.aborts quit
  exact ⟨after, aborted, failed, failed.machine_of_commands.2⟩

/-- A program that counts to two. -/
def counting : Image :=
  .ofWords [0x5101, 0x5101, 0x0000]

/-- Its run in the debugger after a look at the registers and a single step. -/
def countedSession : Session :=
  left (step (start counting ⟨.enabled, true⟩ (.start [.line "p", .line "", .line "q"] .calm)))

/-- The next prompt is a quit, and the second sum is not executed. -/
theorem countedSession_quits :
    countedSession.debugger = .enabled ∧ countedSession.commandsGiven = [.quit] ∧
      (left (step countedSession)).debugger.mode = .terminated ∧
      ∃ after, step countedSession = .error (.bare .aborted) after ∧
        after.state = countedSession.state.advance ∧ after.steps = countedSession.steps := by
  have retires : outcome (step (start counting ⟨.enabled, true⟩
      (.start [.line "p", .line "", .line "q"] .calm))) = .ok .retired := by
    decide +kernel
  have commands : (start counting ⟨.enabled, true⟩
      (.start [.line "p", .line "", .line "q"] .calm)).commandsGiven = [.print, .step] ∧
      countedSession.commandsGiven = [.quit] := by
    decide +kernel
  have debugged : Debugged counting true _ countedSession :=
    .step (.start _) (eq_ok_of_outcome retires)
  rw [commands.1] at debugged
  obtain ⟨follows, -, -, terminated, aborts⟩ := debugger_follows_protocol debugged
  have quit : .quit ∈ countedSession.commandsGiven := by
    rw [commands.2]
    exact List.mem_singleton_self _
  obtain ⟨after, aborted, -, unexecuted⟩ := aborts quit
  exact ⟨follows, commands.2, terminated.mpr quit, after, aborted, unexecuted⟩

end Protocol

end Session

end MiniatureMachine
