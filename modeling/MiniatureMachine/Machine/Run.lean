import MiniatureMachine.Machine.Session

/-!
Contract: whole runs of a session.

Owns:
- how a run ends and what it leaves;
- the report of a fault on the console;
- a bounded number of steps;
- stepping until the machine halts or faults.

A run that has not ended within its fuel has no result. A run that has ended
ends the same way with more fuel.
-/

namespace MiniatureMachine

inductive Ending where
  | halted
  | faulted (fault : Fault)
deriving DecidableEq, Repr

/-- A run that has ended, with the session it left. -/
structure Finished where
  ending : Ending
  session : Session
deriving DecidableEq, Repr

namespace Session

/-- The session after a report, whether or not it could be written. -/
def report (fault : Fault) (session : Session) : Session :=
  match Console.writeLine fault.report.text session.console with
  | .ok _ console | .error _ console => { session with console := console }

/-- At most `count` steps, of which only the last may fail to retire. The result
is that of the last step, if there was one. -/
def advance : (count : Nat) → Session → EStateM.Result Fault Session (Option StepOutcome)
  | 0, session => .ok none session
  | count + 1, session =>
      match step session with
      | .error fault after => .error fault after
      | .ok .halted after => .ok (some .halted) after
      | .ok .retired after =>
          match advance count after with
          | .ok none last => .ok (some .retired) last
          | result => result

/-- Steps until the machine halts or faults, for at most `fuel` steps. A fault
is reported on the console. -/
def run : (fuel : Nat) → Session → Option Finished
  | 0, _ => none
  | fuel + 1, session =>
      match step session with
      | .ok .retired after => run fuel after
      | .ok .halted after => some ⟨.halted, after⟩
      | .error fault after => some ⟨.faulted fault, report fault after⟩

/-- More fuel does not change the result of a run that has ended. -/
theorem run_add {fuel : Nat} {session : Session} {finished : Finished}
    (ended : run fuel session = some finished) (more : Nat) :
    run (fuel + more) session = some finished := by
  induction fuel generalizing session with
  | zero => simp [run] at ended
  | succ fuel inductionHypothesis =>
      rw [Nat.add_right_comm]
      simp only [run] at ended ⊢
      split at ended
      · exact inductionHypothesis ended
      · exact ended
      · exact ended

end Session

end MiniatureMachine
