import MiniatureMachine.Proofs.Machine.Exchange
import MiniatureMachine.Proofs.Machine.Step

/-!
Contract: what passes between a session and its operator in the phases of a step.

Owns:
- that every phase, and so the step, can be replayed on another calm console;
- the replay of an execution in another session;
- what can still fail when no call of the console does.
-/

namespace MiniatureMachine

open Effects

namespace Session

/-! ## Sessions away from their consoles -/

/-- The session away from its console. -/
def detached (session : Session) : Session :=
  { session with console := .start [] .calm }

theorem eq_of_detached {ν : Type} (view : Session → ν) {one other : Session}
    (ignores : IgnoresConsole view) (same : one.detached = other.detached) :
    view one = view other := by
  rw [← ignores one (.start [] .calm), ← ignores other (.start [] .calm)]
  exact congrArg view same

theorem state_of_detached {one other : Session} (same : one.detached = other.detached) :
    one.state = other.state :=
  eq_of_detached Session.state (fun _ _ => rfl) same

theorem debugger_of_detached {one other : Session} (same : one.detached = other.detached) :
    one.debugger = other.debugger :=
  eq_of_detached Session.debugger (fun _ _ => rfl) same

private theorem questionPending_of_detached {one other : Session}
    (same : one.detached = other.detached) : one.questionPending = other.questionPending :=
  eq_of_detached Session.questionPending (fun _ _ => rfl) same

/-- A phase that can be replayed on another console. -/
abbrev Replays {α : Type} (phase : Phase α) (before : Session) : Prop :=
  Effects.Replays Session.console detached phase before

/-! ## Replaying the phases -/

theorem replays_converse {α : Type} {dialogue : Dialogue α} {before : Session}
    (replays : dialogue.Replays before.console) : Replays (converse dialogue) before := by
  rw [converse_eq_lift]
  exact Effects.Replays.lift replays (fun _ => rfl) (fun _ _ _ => rfl)
    fun one other _ _ same _ => same

private theorem replays_respond (state : State) (command : DebugCommand) (console : Console) :
    Dialogue.Replays (respond state command) console := by
  cases command with
  | dump => exact Console.replays_write _ console
  | print | help | run => exact Console.replays_writeLine _ console
  | «continue» | quit | step => exact .pure () console

private theorem replays_askAboutDebugging (before : Session) :
    Replays askAboutDebugging before := by
  unfold askAboutDebugging
  refine .get (fun state same => ?_) ?_
  · rw [questionPending_of_detached same]
  · split
    · refine (replays_converse (Console.replays_promptLine _ _)).bind fun answer middle _ => ?_
      refine .modify (fun _ => rfl) fun state same => ?_
      exact congrArg (fun session : Session =>
        { session with
          debugger := if isAffirmative answer then .enabled else session.debugger
          questionPending := false }) same
    · exact .pure _ _

/-- A fetch looks at the flag of the console, which is down on every calm console. -/
theorem replays_fetch (before : Session) : Replays fetch before := by
  intro calm
  have fetches : ∀ elsewhere : Session, elsewhere.console.Calm →
      elsewhere.detached = before.detached →
      outcome (fetch elsewhere) = outcome (fetch before) ∧
        left (fetch elsewhere) = { elsewhere with state := (left (fetch before)).state } :=
    fun elsewhere calm' same => fetch_congr (state_of_detached same)
      (calm'.uninterrupted.trans calm.uninterrupted.symm)
  refine ⟨.nothing, ?_, fun elsewhere rest calm' same _ _ => ?_⟩
  · rw [(fetches before calm rfl).2]
    exact calm.undergoes_nothing
  · obtain ⟨sameOutcome, sameLeft⟩ := fetches elsewhere calm' same
    refine ⟨sameOutcome, ?_, ?_⟩
    · rw [sameLeft, (fetches before calm rfl).2]
      exact congrArg (fun session : Session =>
        { session with state := (left (fetch before)).state }) same
    · rw [sameLeft]
      exact calm'.undergoes_nothing

/-- The induction is on the length of the script. -/
theorem replays_takeCommands (before : Session) : Replays takeCommands before := by
  induction length : before.console.script.length using Nat.strongRecOn generalizing before with
  | ind length inductionHypothesis =>
      rw [takeCommands_eq]
      refine .get (fun state same => ?_) ?_
      · rw [debugger_of_detached same]
      split
      · refine (replays_converse (Console.replays_promptLine _ _)).bind
          fun line asked prompted => ?_
        refine .get (fun state same => ?_) ?_
        · rw [state_of_detached same]
        refine (replays_converse (replays_respond _ _ _)).bind fun _ shown responded => ?_
        refine Effects.Replays.bind (.modify (fun _ => rfl) fun state same => ?_)
          fun _ obeyed changed => ?_
        · exact congrArg (fun session : Session =>
            { session with debugger := session.debugger.apply (DebugCommand.parse line) }) same
        have taken := length_script_of_turn prompted responded
        have shorter : obeyed.console.script.length < before.console.script.length := by
          cases changed
          exact taken
        exact .ite (fun _ => .throw _ _) fun _ =>
          inductionHypothesis _ (length ▸ shorter) obeyed rfl
      · exact .pure _ _

private theorem traceText_of_detached {one other : Session} (same : one.detached = other.detached)
    (pc : Nat) (word : Word) : one.traceText pc word = other.traceText pc word :=
  eq_of_detached (traceText · pc word) (fun _ _ => rfl) same

private theorem replays_trace (pc : Nat) (word : Word) (before : Session) :
    Replays (trace pc word) before := by
  unfold trace
  refine .get (fun state same => ?_) ?_
  · rw [debugger_of_detached same, traceText_of_detached same]
  · split
    · exact replays_converse (Console.replays_writeLine _ _)
    · exact .pure _ _

theorem replays_prepare (before : Session) : Replays prepare before := by
  unfold prepare
  refine (replays_askAboutDebugging before).bind fun _ asked _ => ?_
  refine (replays_fetch asked).bind fun entry fetched _ => ?_
  refine (replays_takeCommands fetched).bind fun _ obeyed _ => ?_
  exact (replays_trace _ _ obeyed).bind fun _ traced _ => .pure entry traced

/-! ## Executing, retiring and concluding -/

/-- An execution can be replayed in any session with the same state. -/
theorem replays_perform_elsewhere (pc : Nat) (word : Word) (session : Session) :
    Effects.Replays Session.console Session.state (perform pc word) session := by
  rw [perform_eq_lift]
  refine Effects.Replays.lift ((Instruction.decode word).replays_execute pc _) (fun _ => rfl)
    (fun _ _ same => same) ?_
  intro one other bench bench' _ sameState
  exact sameState

/-- Of the session, an execution sees the state and the console only. -/
theorem replays_perform (pc : Nat) (word : Word) (before : Session) :
    Replays (perform pc word) before := by
  rw [perform_eq_lift]
  refine Effects.Replays.lift ((Instruction.decode word).replays_execute pc _) (fun _ => rfl)
    (fun one other same => state_of_detached same) ?_
  intro one other bench bench' same sameState
  show { one.detached with state := bench.state } = { other.detached with state := bench'.state }
  rw [same, sameState]

private theorem replays_conclude (before : Session) : Replays conclude before := by
  unfold conclude
  refine .get (fun state same => ?_) ?_
  · rw [state_of_detached same, debugger_of_detached same]
  · split
    · split
      · exact (replays_converse (Console.replays_writeLine _ _)).bind fun _ _ _ => .pure _ _
      · exact .pure _ _
    · exact .pure _ _

theorem replays_step (before : Session) : Replays step before := by
  have sameHalted : ∀ state : Session, state.detached = before.detached →
      state.state.halted = before.state.halted :=
    fun state same => congrArg State.halted (state_of_detached same)
  cases halted : before.state.halted with
  | true =>
      refine .congr (fun state same => ?_) (Effects.Replays.pure StepOutcome.halted before)
      exact step_of_halted ((sameHalted state same).trans halted)
  | false =>
      refine .congr (fun state same => step_of_running ((sameHalted state same).trans halted)) ?_
      refine (replays_prepare before).bind fun entry ready _ => ?_
      refine (replays_perform _ _ ready).bind fun _ performed _ => ?_
      refine Effects.Replays.bind (.modify (fun _ => rfl) fun state same => ?_)
        fun _ retired _ => replays_conclude retired
      exact congrArg retire same

/-! ## Calm consoles -/

private theorem respond_of_calm {console : Console} (calm : console.Calm) (state : State)
    (command : DebugCommand) : ∃ after, respond state command console = .ok () after := by
  cases command with
  | dump => exact ⟨_, Console.write_of_calm calm _⟩
  | print | help | run =>
      obtain ⟨after, written, -⟩ := Console.writeLine_of_calm calm _
      exact ⟨after, written⟩
  | «continue» | quit | step => exact ⟨console, rfl⟩

/-- On a calm console only the operator ends the debugger's prompts. -/
theorem takeCommands_error_of_calm {session after : Session} {fault : Fault}
    (calm : session.console.Calm) (failed : takeCommands session = .error fault after) :
    fault.cause.code.isOperatorInitiated = true := by
  have prompts := fun session => (replays_converse
    (Console.replays_promptLine Debugger.commandPrompt (Session.console session))).exchanges
  have responds := fun session command => (replays_converse
    (replays_respond session.state command (Session.console session))).exchanges
  fun_induction takeCommands session with
  | case1 session wants fault' after' asked =>
      cases failed
      obtain ⟨cause, console, unobtained, rfl⟩ := converse_eq_error asked
      exact Console.promptLine_error_of_calm calm unobtained
  | case2 session wants line asked prompted command fault' after' shown =>
      obtain ⟨one, undergoes⟩ := (prompts session).of_ok prompted calm
      obtain ⟨cause, console, unanswered, -⟩ := converse_eq_error shown
      obtain ⟨console', answered⟩ := respond_of_calm undergoes.calm asked.state command
      rw [answered] at unanswered
      cases unanswered
  | case3 session wants line asked prompted command shown responded obeyed quits =>
      rw [← (EStateM.Result.error.inj failed).1]
      rfl
  | case4 session wants line asked prompted command shown responded obeyed goesOn
      inductionHypothesis =>
      obtain ⟨one, undergoes⟩ := (prompts session).of_ok prompted calm
      obtain ⟨two, undergoes'⟩ := (responds asked command).of_ok responded undergoes.calm
      exact inductionHypothesis undergoes'.calm failed
  | case5 session resting => cases failed

theorem trace_of_calm {session : Session} (calm : session.console.Calm) (pc : Nat)
    (word : Word) : ∃ after, trace pc word session = .ok () after := by
  unfold trace
  rw [get_bind]
  split
  · obtain ⟨console, written, -⟩ :=
      Console.writeLine_of_calm calm (traceText session pc word)
    refine ⟨{ session with console := console }, ?_⟩
    unfold converse
    rw [written]
  · exact ⟨session, rfl⟩

def haltNotice (session : Session) : String :=
  if session.state.halted && session.debugger.tracing then "halt\n" ++ "\n" else ""

/-- On a calm console the conclusion succeeds. It writes the notice and takes
nothing. -/
theorem conclude_of_calm {session : Session} (calm : session.console.Calm) :
    ∃ after, conclude session = .ok session.state.retirement after ∧
      session.console.Undergoes ⟨[], session.haltNotice⟩ after.console := by
  unfold conclude haltNotice State.retirement
  rw [get_bind]
  cases session.state.halted with
  | false => exact ⟨session, rfl, calm.undergoes_nothing⟩
  | true =>
      cases session.debugger.tracing with
      | false => exact ⟨session, rfl, calm.undergoes_nothing⟩
      | true =>
          obtain ⟨after, written, undergoes⟩ := Console.writeLine_of_calm calm "halt\n"
          refine ⟨{ session with console := after }, ?_, undergoes⟩
          simp only [if_true, bind, EStateM.bind, converse, written]
          rfl

end Session

end MiniatureMachine
