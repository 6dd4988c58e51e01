import MiniatureMachine.Proofs.Machine.Step

/-!
Contract: the steps of a session that nobody debugs.

Owns:
- sessions without a debugger and without a pending question;
- their step: fetching, executing and retiring, with nothing between.

An unattended session stays unattended, and only its instructions use the console.
-/

namespace MiniatureMachine

open Effects

namespace Session

/-- Nobody debugs the session, and nobody is still to be asked. -/
structure Unattended (session : Session) : Prop where
  debugger : session.debugger = .disabled
  answered : session.questionPending = false

theorem unattended_start (image : Image) (showNext : Bool) (console : Console) :
    (start image ⟨.disabled, showNext⟩ console).Unattended :=
  ⟨rfl, rfl⟩

/-! ## Parts that do nothing -/

theorem askAboutDebugging_of_answered {session : Session}
    (answered : session.questionPending = false) :
    askAboutDebugging session = .ok () session := by
  unfold askAboutDebugging
  rw [get_bind, answered]
  rfl

private theorem takeCommands_of_resting {session : Session}
    (resting : session.debugger.wantsCommand = false) :
    takeCommands session = .ok () session := by
  rw [takeCommands, resting]
  rfl

private theorem trace_of_untraced {session : Session} (untraced : session.debugger.tracing = false)
    (pc : Nat) (word : Word) : trace pc word session = .ok () session := by
  unfold trace
  rw [get_bind, untraced]
  rfl

private theorem conclude_of_untraced {session : Session}
    (untraced : session.debugger.tracing = false) :
    conclude session = .ok session.state.retirement session := by
  unfold conclude State.retirement
  rw [get_bind, untraced]
  cases session.state.halted <;> rfl

/-! ## The step -/

variable {session after : Session}

theorem Unattended.of_fetch {entry : Nat × Word} (unattended : session.Unattended)
    (fetched : fetch session = .ok entry after) : after.Unattended := by
  obtain ⟨-, -, -, -, rfl⟩ := fetch_eq_ok fetched
  exact ⟨unattended.debugger, unattended.answered⟩

theorem Unattended.prepare_eq (unattended : session.Unattended) :
    prepare session = fetch session := by
  unfold prepare
  rw [bind_of_ok (askAboutDebugging_of_answered unattended.answered)]
  cases fetched : fetch session with
  | error fault stopped => exact bind_eq_error_iff.mpr (.inl fetched)
  | ok entry after =>
      have debugger := (unattended.of_fetch fetched).debugger
      rw [bind_of_ok fetched, bind_of_ok (takeCommands_of_resting (by rw [debugger]; rfl)),
        bind_of_ok (trace_of_untraced (by rw [debugger]; rfl) entry.1 entry.2)]
      rfl

theorem Unattended.of_perform (unattended : session.Unattended) (pc : Nat) (word : Word) :
    (left (perform pc word session)).Unattended where
  debugger :=
    (keeps_perform (fun _ _ _ => rfl) pc word session).trans unattended.debugger
  answered :=
    (keeps_perform (fun _ _ _ => rfl) pc word session).trans unattended.answered

theorem Unattended.retire (unattended : session.Unattended) : session.retire.Unattended where
  debugger := by
    unfold Session.retire
    rw [unattended.debugger]
    rfl
  answered := unattended.answered

theorem Unattended.step_of_ok {entry : Nat × Word} {fetched performed : Session}
    (unattended : session.Unattended) (running : session.state.halted = false)
    (fetching : fetch session = .ok entry fetched)
    (executed : perform entry.1 entry.2 fetched = .ok () performed) :
    step session = .ok performed.retire.state.retirement performed.retire ∧
      performed.retire.Unattended := by
  have stays : performed.Unattended := by
    have performs := (unattended.of_fetch fetching).of_perform entry.1 entry.2
    rw [executed] at performs
    exact performs
  refine ⟨?_, stays.retire⟩
  rw [step_of_running running, bind_of_ok (unattended.prepare_eq.trans fetching),
    bind_of_ok executed]
  exact conclude_of_untraced (by rw [stays.retire.debugger]; rfl)

theorem Unattended.step_of_fetch_error {fault : Fault} (unattended : session.Unattended)
    (running : session.state.halted = false) (refused : fetch session = .error fault after) :
    step session = .error fault after := by
  rw [step_of_running running]
  exact bind_eq_error_iff.mpr (.inl (unattended.prepare_eq.trans refused))

theorem Unattended.step_of_perform_error {entry : Nat × Word} {fetched : Session}
    {fault : Fault} (unattended : session.Unattended) (running : session.state.halted = false)
    (fetching : fetch session = .ok entry fetched)
    (failed : perform entry.1 entry.2 fetched = .error fault after) :
    step session = .error fault after := by
  rw [step_of_running running, bind_of_ok (unattended.prepare_eq.trans fetching)]
  exact bind_eq_error_iff.mpr (.inl failed)

theorem Unattended.of_step {outcome : StepOutcome} (unattended : session.Unattended)
    (stepped : step session = .ok outcome after) : after.Unattended := by
  by_cases halted : session.state.halted = true
  · rw [step_of_halted halted] at stepped
    cases stepped
    exact unattended
  · have running := Bool.not_eq_true _ ▸ halted
    obtain ⟨entry, ready, performed, prepared, executed, -⟩ := step_eq_ok running stepped
    have steps := unattended.step_of_ok running (unattended.prepare_eq ▸ prepared) executed
    rw [steps.1] at stepped
    cases stepped
    exact steps.2

end Session

end MiniatureMachine
