import MiniatureMachine.Proofs.Machine.Transparency
import MiniatureMachine.Proofs.Machine.UnreadInput

/-!
Contract: a run that begins with the question is the question, and then a run without it.

Owns:
- the answers that are a yes;
- two runs of which one has written something before;
- what passes at the question in the steps of a run.

The session that has been asked differs from one that was never to be asked: it has counted
more calls, and the question stands in front of its output. A calm console shows no call
count, and no phase looks at the output.
-/

namespace MiniatureMachine

open Effects

namespace Session

/-! ## Answers -/

/-- An answer that is a yes: it begins with one of these words, or it is a single `t`. -/
def IsYes (answer : String) : Prop :=
  (∃ word ∈ ["y", "indeed", "true", "affirmative"], word.toList <+: answer.toList) ∨ answer = "t"

theorem isAffirmative_iff {answer : String} : isAffirmative answer = true ↔ IsYes answer := by
  unfold isAffirmative IsYes
  simp only [List.any_cons, List.any_nil, Bool.or_eq_true, List.isPrefixOf_iff_prefix,
    beq_iff_eq, List.mem_cons, List.not_mem_nil, exists_eq_or_imp, exists_eq_left,
    Bool.false_eq_true, or_false]
  exact or_right_comm

instance (answer : String) : Decidable (IsYes answer) :=
  decidable_of_iff _ isAffirmative_iff

/-! ## A run behind an opening -/

/-- Two sessions at the same point of a run, on calm consoles. On the second one an opening
was written before. -/
structure Behind (opening : String) (plain opened : Session) : Prop where
  detached : opened.detached = plain.detached
  calm : plain.console.Calm
  openedCalm : opened.console.Calm
  script : opened.console.script = plain.console.script
  output : opened.console.output = opening ++ plain.console.output

variable {opening : String} {plain opened : Session}

theorem Behind.step (behind : Behind opening plain opened) :
    outcome (step opened) = outcome (step plain) ∧
      Behind opening (left (step plain)) (left (step opened)) := by
  obtain ⟨exchange, sameOutcome, detached, undergoes, undergoes'⟩ :=
    (replays_step plain).of_script behind.calm behind.openedCalm behind.detached behind.script
  have script : exchange.entries ++ (left (Session.step opened)).console.script =
      exchange.entries ++ (left (Session.step plain)).console.script := by
    rw [← undergoes.script, ← undergoes'.script, behind.script]
  refine ⟨sameOutcome, detached, undergoes.calm, undergoes'.calm,
    List.append_cancel_left script, ?_⟩
  rw [undergoes.output, undergoes'.output, behind.output, String.append_assoc]

/-- Two runs that end in the same way, with the same state and count, and leave the same
input. The output of the second one is an opening and then that of the first. -/
structure EndsBehind (opening : String) (plain opened : Finished) : Prop where
  ending : opened.ending = plain.ending
  state : opened.session.state = plain.session.state
  steps : opened.session.steps = plain.session.steps
  unread : opened.session.console.script = plain.session.console.script
  output : opened.session.console.output = opening ++ plain.session.console.output

theorem Behind.ends (behind : Behind opening plain opened) (ending : Ending) :
    EndsBehind opening ⟨ending, plain⟩ ⟨ending, opened⟩ where
  ending := rfl
  state := state_of_detached behind.detached
  steps := eq_of_detached Session.steps (fun _ _ => rfl) behind.detached
  unread := behind.script
  output := behind.output

private theorem Behind.ends_report (behind : Behind opening plain opened) (fault : Fault) :
    EndsBehind opening ⟨.faulted fault, report fault plain⟩
      ⟨.faulted fault, report fault opened⟩ := by
  have undergoes := undergoes_report behind.calm fault
  have undergoes' := undergoes_report behind.openedCalm fault
  obtain ⟨state, steps⟩ := machine_eq_iff.mp (machine_report fault plain)
  obtain ⟨state', steps'⟩ := machine_eq_iff.mp (machine_report fault opened)
  have before := behind.ends (.faulted fault)
  constructor
  · rfl
  · rw [state, state']
    exact before.state
  · rw [steps, steps']
    exact before.steps
  · rw [script_report, script_report]
    exact before.unread
  · rw [undergoes.output, undergoes'.output, behind.output, String.append_assoc]

/-- By induction on the fuel: each step keeps the sessions behind each other. -/
theorem Behind.run (behind : Behind opening plain opened) (fuel : Nat) :
    Option.Rel (EndsBehind opening) (Session.run fuel plain) (Session.run fuel opened) := by
  induction fuel generalizing plain opened with
  | zero => exact .none
  | succ fuel inductionHypothesis =>
      obtain ⟨sameOutcome, after⟩ := behind.step
      unfold Session.run
      generalize Session.step plain = result at sameOutcome after ⊢
      generalize Session.step opened = result' at sameOutcome after ⊢
      cases result <;> cases result' <;> cases sameOutcome
      case succ.error.error.refl fault stopped stopped' => exact .some (after.ends_report fault)
      case succ.ok.ok.refl outcome last last' =>
        cases outcome with
        | halted => exact .some (after.ends .halted)
        | retired => exact inductionHypothesis after

/-! ## The question of a run -/

/-- What passes at the question in the next step. -/
def question (session : Session) : Exchange :=
  if session.state.halted then .nothing
  else session.console.since (left (askAboutDebugging session)).console

/-- What passes at the question in each step of a run. -/
def questions : (fuel : Nat) → Session → List Exchange
  | 0, _ => []
  | fuel + 1, session =>
      session.question ::
        match step session with
        | .ok .retired after => questions fuel after
        | .ok .halted _ | .error _ _ => []

private theorem question_of_underway {session : Session} (underway : session.Underway) :
    session.question = .nothing := by
  unfold question
  rw [underway.running, askAboutDebugging_of_answered underway.answered, left_ok,
    underway.calm.undergoes_nothing.since_eq]
  rfl

private theorem questions_of_underway {session : Session} (underway : session.Underway)
    (fuel : Nat) :
    ∀ exchange ∈ questions fuel session, exchange = .nothing := by
  induction fuel generalizing session with
  | zero => exact nofun
  | succ fuel inductionHypothesis =>
      unfold questions
      refine List.forall_mem_cons.mpr ⟨question_of_underway underway, ?_⟩
      split
      · rename_i after stepped
        exact inductionHypothesis (underway.of_step stepped)
      all_goals exact nofun

/-- A step begins with the question, and goes on as a step that has no question. -/
theorem step_of_answered_question {session after : Session}
    (running : session.state.halted = false)
    (answered : askAboutDebugging session = .ok () after)
    (settled : after.questionPending = false) (stillRunning : after.state.halted = false) :
    step session = step after := by
  rw [step_of_running running, step_of_running stillRunning]
  unfold prepare
  simp only [bind, EStateM.bind, answered, askAboutDebugging_of_answered settled]

private theorem run_of_same_step {session after : Session} (stepped : step session = step after)
    (fuel : Nat) : run fuel session = run fuel after := by
  cases fuel with
  | zero => rfl
  | succ fuel => rw [run, run, stepped]

def asking (image : Image) (showNext : Bool) (answer : String) (script : List Entry) : Session :=
  start image ⟨.ask, showNext⟩ (.start (.line answer :: script) .calm)

def asked (image : Image) (showNext : Bool) (answer : String) (script : List Entry) : Session :=
  left (askAboutDebugging (asking image showNext answer script))

section Asked

variable (image : Image) (showNext : Bool) (answer : String) (script : List Entry)

private theorem askAboutDebugging_asking :
    askAboutDebugging (asking image showNext answer script) =
      .ok () (asked image showNext answer script) :=
  rfl

private theorem underway_asked : (asked image showNext answer script).Underway :=
  ⟨⟨rfl, rfl⟩, rfl, rfl⟩

private theorem question_asking :
    (asking image showNext answer script).question = ⟨[.line answer], debugQuestion⟩ := by
  have undergoes : (asking image showNext answer script).console.Undergoes
      ⟨[.line answer], debugQuestion⟩ (asked image showNext answer script).console :=
    ⟨rfl, rfl, ⟨rfl, rfl⟩⟩
  exact undergoes.since_eq

private theorem asked_eq :
    asked image showNext answer script =
      { start image ⟨.ask, showNext⟩ (asked image showNext answer script).console with
        debugger := if isAffirmative answer then .enabled else .disabled
        questionPending := false } :=
  rfl

/-- The answer has set the debugger up, as the choice at the start would have. -/
theorem behind_asked :
    Behind debugQuestion
      (start image ⟨if IsYes answer then .enabled else .disabled, showNext⟩ (.start script .calm))
      (asked image showNext answer script) := by
  have opened : (asked image showNext answer script).console.Calm := ⟨rfl, rfl⟩
  by_cases yes : IsYes answer
  · rw [asked_eq, if_pos yes, if_pos (isAffirmative_iff.mpr yes)]
    exact ⟨rfl, ⟨rfl, rfl⟩, opened, rfl, rfl⟩
  · rw [asked_eq, if_neg yes, if_neg (mt isAffirmative_iff.mp yes)]
    exact ⟨rfl, ⟨rfl, rfl⟩, opened, rfl, rfl⟩

private theorem step_asking :
    step (asking image showNext answer script) = step (asked image showNext answer script) :=
  step_of_answered_question rfl (askAboutDebugging_asking image showNext answer script) rfl rfl

private theorem questions_asking (fuel : Nat) :
    ∃ later, questions (fuel + 1) (asking image showNext answer script) =
        ⟨[.line answer], debugQuestion⟩ :: later ∧
      ∀ exchange ∈ later, exchange = .nothing := by
  have later := questions_of_underway (underway_asked image showNext answer script) (fuel + 1)
  unfold questions at later ⊢
  rw [question_asking, step_asking]
  exact ⟨_, rfl, (List.forall_mem_cons.mp later).2⟩

/-- A run that asks is the question, and then the run that the answer chooses: in the debugger
for a yes, without it for any other line. It ends in the same way with the same state and
count, leaves the same input, and its output is the question and the output of the other
run. The question is asked in the first step, before the machine has done anything, and in
no other step. -/
theorem asking_run_is_question_and_run (fuel : Nat) :
    Option.Rel (EndsBehind debugQuestion)
        (run fuel (start image ⟨if IsYes answer then .enabled else .disabled, showNext⟩
          (.start script .calm)))
        (run fuel (asking image showNext answer script)) ∧
      (∃ later, questions (fuel + 1) (asking image showNext answer script) =
          ⟨[.line answer], debugQuestion⟩ :: later ∧
        ∀ exchange ∈ later, exchange = .nothing) ∧
      ∃ after, askAboutDebugging (asking image showNext answer script) = .ok () after ∧
        after.state = State.ofImage image ∧ after.steps = 0 ∧
        step (asking image showNext answer script) = step after := by
  have asks := step_asking image showNext answer script
  refine ⟨?_, questions_asking image showNext answer script fuel, ?_⟩
  · rw [run_of_same_step asks]
    exact (behind_asked image showNext answer script).run fuel
  · exact ⟨_, askAboutDebugging_asking image showNext answer script, rfl, rfl, asks⟩

end Asked

end Session

end MiniatureMachine
