import MiniatureMachine.Machine.Run
import MiniatureMachine.Proofs.Machine.Exchange
import MiniatureMachine.Proofs.Machine.Step

/-!
Contract: input that a run does not read makes no difference to it.

Owns:
- computations that go on in the same way when their input is longer;
- that the dialogues, the instructions and the phases of a step are such computations;
- two runs of which one has more on its script.

A read takes the entry at the front and does not look behind it. Only a read that finds
the script empty would go on differently, and that ends the run. So nothing is asked of
the console here: its calls may fail, and the operator may interrupt them.
-/

namespace MiniatureMachine

open Effects

/-! ## Computations on a longer input -/

namespace Effects

variable {ε σ ι α β : Type} (input : σ → List ι) (more : σ → σ) (runsOut : ε → Prop)

/-- A result, and the result on a longer input. They say the same, and what is added stays
unread. Where the input has run out, the second result can be any. -/
inductive ReadsOn (before : σ) : EStateM.Result ε σ α → EStateM.Result ε σ α → Prop
  | ok {value : α} {after : σ} (rest : input after <:+ input before) :
      ReadsOn before (.ok value after) (.ok value (more after))
  | error {cause : ε} {after : σ} (otherwise : ¬runsOut cause)
      (rest : input after <:+ input before) :
      ReadsOn before (.error cause after) (.error cause (more after))
  | ranOut {cause : ε} {after : σ} (result : EStateM.Result ε σ α) (out : runsOut cause)
      (nothing : input after = []) : ReadsOn before (.error cause after) result

/-- A computation for which it makes no difference what follows the input that it reads. -/
def IgnoresUnread (effect : EStateM ε σ α) (before : σ) : Prop :=
  ReadsOn input more runsOut before (effect before) (effect (more before))

variable {input more runsOut} {before : σ}

private theorem ReadsOn.of_suffix {middle : σ} {one other : EStateM.Result ε σ α}
    (reads : ReadsOn input more runsOut middle one other)
    (rest : input middle <:+ input before) : ReadsOn input more runsOut before one other := by
  cases reads with
  | ok rest' => exact .ok (rest'.trans rest)
  | error otherwise rest' => exact .error otherwise (rest'.trans rest)
  | ranOut _ out nothing => exact .ranOut _ out nothing

theorem IgnoresUnread.pure (value : α) :
    IgnoresUnread input more runsOut (Pure.pure value : EStateM ε σ α) before :=
  .ok List.suffix_rfl

theorem IgnoresUnread.throw {cause : ε} (otherwise : ¬runsOut cause) :
    IgnoresUnread input more runsOut (MonadExcept.throw cause : EStateM ε σ α) before :=
  .error otherwise List.suffix_rfl

theorem IgnoresUnread.modify {change : σ → σ}
    (commutes : change (more before) = more (change before))
    (unread : input (change before) = input before) :
    IgnoresUnread input more runsOut (modify change : EStateM ε σ PUnit) before := by
  show ReadsOn input more runsOut before (.ok PUnit.unit (change before))
    (.ok PUnit.unit (change (more before)))
  rw [commutes]
  exact .ok (unread ▸ List.suffix_rfl)

/-- Of the state, only what does not show the added input is used. -/
theorem IgnoresUnread.get {next : σ → EStateM ε σ α} (unseen : next (more before) = next before)
    (ignores : IgnoresUnread input more runsOut (next before) before) :
    IgnoresUnread input more runsOut (MonadState.get >>= next) before := by
  unfold IgnoresUnread
  rw [get_bind, get_bind, unseen]
  exact ignores

theorem IgnoresUnread.ite {condition : Prop} [Decidable condition] {first second : EStateM ε σ α}
    (whenTrue : condition → IgnoresUnread input more runsOut first before)
    (whenFalse : ¬condition → IgnoresUnread input more runsOut second before) :
    IgnoresUnread input more runsOut (if condition then first else second) before := by
  by_cases holds : condition
  · rw [if_pos holds]
    exact whenTrue holds
  · rw [if_neg holds]
    exact whenFalse holds

theorem IgnoresUnread.bind {first : EStateM ε σ α} {next : α → EStateM ε σ β}
    (firstIgnores : IgnoresUnread input more runsOut first before)
    (nextIgnores : ∀ x middle, first before = .ok x middle →
      IgnoresUnread input more runsOut (next x) middle) :
    IgnoresUnread input more runsOut (first >>= next) before := by
  unfold IgnoresUnread at firstIgnores ⊢
  simp only [Bind.bind, EStateM.bind]
  cases ran : first before <;> cases ranLonger : first (more before) <;>
    rw [ran, ranLonger] at firstIgnores
  case ok.ok x middle x' middle' =>
    cases firstIgnores with
    | ok rest => exact (nextIgnores x middle ran).of_suffix rest
  case error.error cause middle cause' middle' =>
    cases firstIgnores with
    | error otherwise rest => exact .error otherwise rest
    | ranOut _ out nothing => exact .ranOut _ out nothing
  case error.ok cause middle x' middle' =>
    cases firstIgnores with
    | ranOut _ out nothing => exact .ranOut _ out nothing
  case ok.error => cases firstIgnores

theorem IgnoresUnread.lift {δ τ : Type} {part : StatePart σ τ} {wrap : δ → ε}
    {effect : EStateM δ τ α}
    {partInput : τ → List ι} {partMore : τ → τ} {partRunsOut : δ → Prop}
    (wraps : ∀ cause, runsOut (wrap cause) ↔ partRunsOut cause)
    (ignores : IgnoresUnread partInput partMore partRunsOut effect (part.get before)) :
    IgnoresUnread (fun state => partInput (part.get state)) (part.update partMore) runsOut
      (part.lift wrap effect) before := by
  unfold IgnoresUnread StatePart.lift at *
  rw [part.get_update]
  generalize effect (part.get before) = result at ignores ⊢
  generalize effect (partMore (part.get before)) = result' at ignores ⊢
  cases ignores with
  | ok rest =>
      dsimp only
      rw [part.put_update, ← part.update_put]
      exact .ok (by rw [part.get_put]; exact rest)
  | error otherwise rest =>
      dsimp only
      rw [part.put_update, ← part.update_put]
      exact .error (mt (wraps _).mp otherwise) (by rw [part.get_put]; exact rest)
  | ranOut _ out nothing =>
      exact .ranOut _ ((wraps _).mpr out) (by rw [part.get_put]; exact nothing)

end Effects

/-! ## Dialogues -/

/-- The console with more entries behind its script. -/
def Console.prolong (later : List Entry) (console : Console) : Console :=
  { console with script := console.script ++ later }

/-- What follows the entries that a dialogue reads makes no difference to it. -/
abbrev Dialogue.IgnoresUnread {α : Type} (later : List Entry) (dialogue : Dialogue α)
    (before : Console) : Prop :=
  Effects.IgnoresUnread Console.script (Console.prolong later) (· = .endOfInput) dialogue before

variable (later : List Entry)

namespace Console

theorem ignoresUnread_write (text : String) (before : Console) :
    (write text).IgnoresUnread later before := by
  unfold Dialogue.IgnoresUnread Effects.IgnoresUnread write prolong
  dsimp only
  split
  · exact .error (by simp) List.suffix_rfl
  · exact .ok List.suffix_rfl

theorem ignoresUnread_writeLine (text : String) (before : Console) :
    (writeLine text).IgnoresUnread later before :=
  (ignoresUnread_write later text before).bind fun _ middle _ =>
    ignoresUnread_write later "\n" middle

private theorem keeps_script_write (text : String) : Keeps Console.script (write text) :=
  fun before => congrArg Prod.fst (keeps_input_write text before)

private theorem keeps_script_writeLine (text : String) : Keeps Console.script (writeLine text) :=
  (keeps_script_write text).bind fun _ => keeps_script_write "\n"

/-- The end of the input is where a longer script makes a difference. -/
theorem ignoresUnread_readLine_demand (before : Console) :
    Dialogue.IgnoresUnread later (readLine >>= demand) before := by
  unfold Dialogue.IgnoresUnread Effects.IgnoresUnread
  simp only [bind, EStateM.bind, readLine, prolong]
  cases before.schedule.failingReads.lookup before.reads with
  | some failure => exact .error (by simp) List.suffix_rfl
  | none =>
      rcases script : before.script with _ | ⟨_ | _, rest⟩
      case nil => exact .ranOut _ rfl script
      case cons.line text => exact .ok (script ▸ List.suffix_cons _ _)
      case cons.interrupt => exact .error (by simp) (script ▸ List.suffix_cons _ _)

theorem ignoresUnread_promptLine (text : String) (before : Console) :
    (promptLine text).IgnoresUnread later before := by
  rw [promptLine_eq]
  exact (ignoresUnread_write later text before).bind fun _ middle _ =>
    ignoresUnread_readLine_demand later middle

end Console

namespace NumberInput

/-- The induction is on the length of the script. -/
theorem ignoresUnread_retry (before : Console) :
    Dialogue.IgnoresUnread later retry before := by
  induction length : before.script.length using Nat.strongRecOn generalizing before with
  | ind length inductionHypothesis =>
      rw [retry_eq]
      refine (Console.ignoresUnread_writeLine later _ _).bind fun _ middle noticed => ?_
      refine (Console.ignoresUnread_promptLine later _ _).bind fun line after obtained => ?_
      have shorter := length_script_of_attempt noticed obtained
      split
      · exact .throw (by simp)
      · split
        · exact .pure _
        · exact inductionHypothesis _ (length ▸ shorter) after rfl

private theorem ignoresUnread_read (before : Console) : read.IgnoresUnread later before := by
  rw [read_eq]
  refine (Console.ignoresUnread_readLine_demand later before).bind fun line middle _ => ?_
  split
  · exact .pure _
  · exact ignoresUnread_retry later middle

end NumberInput

/-! ## Instructions -/

namespace State

variable {before : State} {cause : FaultCause} {fetchedAt index : Nat} {target : Int}

theorem not_isFromDialogue_of_assign (refused : before.assign index target = .error cause) :
    ¬cause.IsFromDialogue := by
  obtain ⟨-, rfl⟩ := assign_eq_error_iff.mp refused
  exact id

theorem not_isFromDialogue_of_jump (refused : before.jump fetchedAt target = .error cause) :
    ¬cause.IsFromDialogue := by
  obtain ⟨-, rfl⟩ := jump_eq_error_iff.mp refused
  exact id

theorem not_isFromDialogue_of_load
    (refused : before.load fetchedAt index target = .error cause) : ¬cause.IsFromDialogue := by
  obtain ⟨-, rfl⟩ := load_eq_error_iff.mp refused
  exact id

theorem not_isFromDialogue_of_store
    (refused : before.store fetchedAt index target = .error cause) : ¬cause.IsFromDialogue := by
  obtain ⟨-, rfl⟩ := store_eq_error_iff.mp refused
  exact id

theorem not_isFromDialogue_of_compute {operation : Operation} {left right : Nat}
    (refused : before.compute fetchedAt operation index left right = .error cause) :
    ¬cause.IsFromDialogue := by
  unfold compute at refused
  split at refused
  · exact not_isFromDialogue_of_assign refused
  · cases refused
    exact id

theorem not_isFromDialogue_of_branch {operation : Operation}
    (refused : before.branch fetchedAt operation index target = .error cause) :
    ¬cause.IsFromDialogue := by
  unfold branch at refused
  split at refused
  · exact not_isFromDialogue_of_jump refused
  · cases refused

end State

namespace Bench

def script (bench : Bench) : List Entry :=
  bench.console.script

def prolong (bench : Bench) : Bench :=
  { bench with console := bench.console.prolong later }

/-- What follows the entries that an effect reads makes no difference to it. -/
abbrev IgnoresUnread {α : Type} (effect : Effect α) (before : Bench) : Prop :=
  Effects.IgnoresUnread script (prolong later) (· = .endOfInput) effect before

theorem ignoresUnread_converse {α : Type} {dialogue : Dialogue α} {before : Bench}
    (ignores : dialogue.IgnoresUnread later before.console) :
    IgnoresUnread later (converse dialogue) before := by
  have lifted : Effects.IgnoresUnread (fun bench => (consolePart.get bench).script)
      (consolePart.update (Console.prolong later)) (· = .endOfInput) (consolePart.lift id dialogue)
      before :=
    Effects.IgnoresUnread.lift (fun _ => Iff.rfl) ignores
  rw [converse_eq_lift]
  exact lifted

/-- An update does not see the console, and it never fails for want of input. -/
theorem ignoresUnread_update {change : State → Except FaultCause State}
    (notFromDialogue : ∀ before cause, change before = .error cause → ¬cause.IsFromDialogue)
    (before : Bench) : IgnoresUnread later (update change) before := by
  unfold IgnoresUnread Effects.IgnoresUnread update prolong
  dsimp only
  cases changed : change before.state with
  | ok state => exact .ok List.suffix_rfl
  | error cause =>
      refine .error ?_ List.suffix_rfl
      rintro rfl
      exact notFromDialogue _ _ changed trivial

end Bench

namespace Instruction

private theorem ignoresUnread_execute (instruction : Instruction) (fetchedAt : Nat)
    (before : Bench) :
    Bench.IgnoresUnread later (instruction.execute fetchedAt) before := by
  unfold execute
  cases instruction.operation
  case nop => exact .pure ()
  case data => exact .throw (by simp)
  case read =>
    refine (Bench.ignoresUnread_converse later (NumberInput.ignoresUnread_read later _)).bind
      fun word middle _ => ?_
    refine Bench.ignoresUnread_update later (fun _ _ refused => ?_) middle
    cases refused
  case write =>
    exact .get rfl (Bench.ignoresUnread_converse later (Console.ignoresUnread_writeLine later _ _))
  case call =>
    refine (Bench.ignoresUnread_update later
      (fun _ _ => State.not_isFromDialogue_of_assign) _).bind fun _ middle _ => ?_
    exact Bench.ignoresUnread_update later (fun _ _ => State.not_isFromDialogue_of_jump) middle
  -- The other operations are plain updates of the state.
  all_goals refine Bench.ignoresUnread_update later (fun _ _ refused => ?_) before
  case halt => cases refused
  case jumpi | jump => exact State.not_isFromDialogue_of_jump refused
  case loadn | addn | mov | neg => exact State.not_isFromDialogue_of_assign refused
  case load | loadi => exact State.not_isFromDialogue_of_load refused
  case store | storei => exact State.not_isFromDialogue_of_store refused
  case add | sub | mul | div | mod => exact State.not_isFromDialogue_of_compute refused
  case jeqz | jnez | jgtz | jltz => exact State.not_isFromDialogue_of_branch refused

end Instruction

/-! ## Phases of a step -/

namespace Session

def prolong (session : Session) : Session :=
  { session with console := session.console.prolong later }

/-- What follows the entries that a phase reads makes no difference to it. -/
abbrev IgnoresUnread {α : Type} (phase : Phase α) (before : Session) : Prop :=
  Effects.IgnoresUnread (·.console.script) (prolong later) (·.cause = .endOfInput) phase before

theorem ignoresUnread_converse {α : Type} {dialogue : Dialogue α} {before : Session}
    (ignores : dialogue.IgnoresUnread later before.console) :
    IgnoresUnread later (converse dialogue) before := by
  have lifted : Effects.IgnoresUnread (fun session => (consolePart.get session).script)
      (consolePart.update (Console.prolong later)) (·.cause = .endOfInput)
      (consolePart.lift Fault.bare dialogue) before :=
    Effects.IgnoresUnread.lift (fun _ => Iff.rfl) ignores
  rw [converse_eq_lift]
  exact lifted

private theorem ignoresUnread_askAboutDebugging (before : Session) :
    IgnoresUnread later askAboutDebugging before := by
  unfold askAboutDebugging
  refine .get rfl ?_
  split
  · refine (ignoresUnread_converse later (Console.ignoresUnread_promptLine later _ _)).bind
      fun answer middle _ => ?_
    exact .modify rfl rfl
  · exact .pure _

private theorem ignoresUnread_fetch (before : Session) : IgnoresUnread later fetch before := by
  obtain ⟨sameOutcome, sameLeft⟩ :=
    @fetch_congr before (before.prolong later) rfl rfl
  unfold IgnoresUnread Effects.IgnoresUnread
  cases fetched : fetch before with
  | ok entry after =>
      obtain ⟨-, -, -, -, rfl⟩ := fetch_eq_ok fetched
      rw [fetched] at sameOutcome sameLeft
      rw [eq_ok_of_outcome sameOutcome, sameLeft]
      exact .ok List.suffix_rfl
  | error fault after =>
      obtain ⟨rfl, cause, rfl, refuses⟩ := fetch_eq_error fetched
      rw [fetched] at sameOutcome sameLeft
      rw [eq_error_of_outcome sameOutcome, sameLeft]
      refine .error ?_ List.suffix_rfl
      cases refuses <;> simp [Fault.bare]

private theorem ignoresUnread_respond (state : State) (command : DebugCommand) (before : Console) :
    (respond state command).IgnoresUnread later before := by
  cases command with
  | dump => exact Console.ignoresUnread_write later _ _
  | print | help | run => exact Console.ignoresUnread_writeLine later _ _
  | «continue» | quit | step => exact .pure _

/-- The induction is on the length of the script. -/
theorem ignoresUnread_takeCommands (before : Session) :
    IgnoresUnread later takeCommands before := by
  induction length : before.console.script.length using Nat.strongRecOn generalizing before with
  | ind length inductionHypothesis =>
      rw [takeCommands_eq]
      refine .get rfl ?_
      split
      · refine (ignoresUnread_converse later (Console.ignoresUnread_promptLine later _ _)).bind
          fun line asked prompted => ?_
        refine .get rfl ?_
        refine (ignoresUnread_converse later (ignoresUnread_respond later _ _ _)).bind
          fun _ shown responded => ?_
        refine IgnoresUnread.bind (.modify rfl rfl) fun _ obeyed changed => ?_
        have taken := length_script_of_turn prompted responded
        have shorter : obeyed.console.script.length < before.console.script.length := by
          cases changed
          exact taken
        refine .ite (fun _ => .throw (by simp [Fault.bare])) fun _ => ?_
        exact inductionHypothesis _ (length ▸ shorter) obeyed rfl
      · exact .pure _

private theorem ignoresUnread_trace (pc : Nat) (word : Word) (before : Session) :
    IgnoresUnread later (trace pc word) before := by
  unfold trace
  refine .get rfl ?_
  split
  · exact ignoresUnread_converse later (Console.ignoresUnread_writeLine later _ _)
  · exact .pure _

private theorem ignoresUnread_perform (pc : Nat) (word : Word) (before : Session) :
    IgnoresUnread later (perform pc word) before := by
  have lifted : Effects.IgnoresUnread (fun session => (benchPart.get session).script)
      (benchPart.update (Bench.prolong later)) (fun fault : Fault => fault.cause = .endOfInput)
      (benchPart.lift (fun cause => ⟨cause, some (FaultContext.ofWord pc word)⟩)
        ((Instruction.decode word).execute pc)) before :=
    Effects.IgnoresUnread.lift (fun _ => Iff.rfl)
      ((Instruction.decode word).ignoresUnread_execute later pc _)
  rw [perform_eq_lift]
  exact lifted

private theorem ignoresUnread_conclude (before : Session) :
    IgnoresUnread later conclude before := by
  unfold conclude
  refine .get rfl ?_
  split
  · split
    · exact (ignoresUnread_converse later (Console.ignoresUnread_writeLine later _ _)).bind
        fun _ _ _ => .pure _
    · exact .pure _
  · exact .pure _

/-- A step does not look beyond the entries that it reads. -/
theorem ignoresUnread_step (before : Session) : IgnoresUnread later step before := by
  unfold step
  refine .get rfl ?_
  split
  · exact .pure _
  · refine (ignoresUnread_askAboutDebugging later _).bind fun _ asked _ => ?_
    refine (ignoresUnread_fetch later asked).bind fun entry fetched _ => ?_
    refine (ignoresUnread_takeCommands later fetched).bind fun _ obeyed _ => ?_
    refine (ignoresUnread_trace later _ _ obeyed).bind fun _ traced _ => ?_
    refine (ignoresUnread_perform later _ _ traced).bind fun _ performed _ => ?_
    exact IgnoresUnread.bind (.modify rfl rfl) fun _ retired _ =>
      ignoresUnread_conclude later retired

end Session

/-! ## Whole runs -/

/-- Whether a run ended because a line was needed and the script was empty. -/
def Ending.IsEndOfInput : Ending → Prop
  | .halted => False
  | .faulted fault => fault.cause = .endOfInput

namespace Session

/-- A report reads nothing. -/
theorem script_report (fault : Fault) (session : Session) :
    (report fault session).console.script = session.console.script := by
  have kept := Console.keeps_script_writeLine fault.report.text session.console
  unfold report
  cases written : Console.writeLine fault.report.text session.console <;>
    rw [written] at kept <;> exact kept

private theorem report_prolong (fault : Fault) (session : Session) :
    report fault (session.prolong later) = (report fault session).prolong later := by
  have reads : ReadsOn Console.script (Console.prolong later) (· = .endOfInput) session.console
      (Console.writeLine fault.report.text session.console)
      (Console.writeLine fault.report.text (session.console.prolong later)) :=
    Console.ignoresUnread_writeLine later _ _
  unfold report prolong
  dsimp only
  generalize written : Console.writeLine fault.report.text session.console = result at reads ⊢
  generalize Console.writeLine fault.report.text (session.console.prolong later) = result'
    at reads ⊢
  cases reads with
  | ok rest => rfl
  | error otherwise rest => rfl
  | ranOut _ out nothing =>
      obtain ⟨failure, isConsole⟩ := Console.writeLine_eq_error written
      cases out.symm.trans isConsole

/-- By induction on the fuel: a step that retires leaves a suffix of the script, with which
the rest of the run goes on. -/
theorem run_prolong {fuel : Nat} {session : Session} {finished : Finished}
    (ended : run fuel session = some finished) :
    finished.session.console.script <:+ session.console.script ∧
      (finished.ending.IsEndOfInput → finished.session.console.script = []) ∧
      (¬finished.ending.IsEndOfInput → run fuel (session.prolong later) =
        some { finished with session := finished.session.prolong later }) := by
  induction fuel generalizing session with
  | zero => cases ended
  | succ fuel inductionHypothesis =>
      have reads := ignoresUnread_step later session
      unfold IgnoresUnread Effects.IgnoresUnread at reads
      rw [run] at ended ⊢
      generalize step session = result at reads ended
      generalize step (session.prolong later) = result' at reads ⊢
      cases reads with
      | @ok outcome after rest =>
          cases outcome with
          | retired =>
              obtain ⟨rest', exhausts, goesOn⟩ := inductionHypothesis ended
              exact ⟨rest'.trans rest, exhausts, goesOn⟩
          | halted =>
              cases ended
              exact ⟨rest, False.elim, fun _ => rfl⟩
      | @error fault after otherwise rest =>
          cases ended
          rw [script_report]
          refine ⟨rest, fun out => absurd out otherwise, fun _ => ?_⟩
          dsimp only
          rw [report_prolong]
      | @ranOut fault after _ out nothing =>
          cases ended
          rw [script_report, nothing]
          exact ⟨List.nil_suffix, fun _ => rfl, fun notOut => absurd out notOut⟩

/-- Unread input has no influence, and none is lost. What a run has read is the front of
its script. If it ends for want of input, it has read everything. Otherwise, with any
entries added to the script, it ends in the same way, with the same session, but that the
added entries are left unread behind the rest. -/
theorem unread_input_has_no_influence {image : Image} {options : SessionOptions}
    {console : Console} {fuel : Nat} {finished : Finished}
    (ended : run fuel (start image options console) = some finished) :
    ∃ consumed, console.script = consumed ++ finished.session.console.script ∧
      (finished.ending.IsEndOfInput → console.script = consumed) ∧
      (¬finished.ending.IsEndOfInput → ∀ later,
        run fuel (start image options (console.prolong later)) =
          some { finished with session := finished.session.prolong later }) := by
  obtain ⟨⟨consumed, read⟩, exhausts, -⟩ := run_prolong [] ended
  refine ⟨consumed, read.symm, fun out => ?_, fun notOut later => ?_⟩
  · rw [exhausts out, List.append_nil] at read
    exact read.symm
  · exact (run_prolong later ended).2.2 notOut

/-- A program that reads a number and halts. -/
def reading : Image :=
  ⟨[some 0x0101, some 0x0000]⟩

/-- The operator asks for the debugger, lets the program run, enters what is no number and
gives up. What is on the script behind that stays. -/
theorem reading_ignores_unread :
    (run 1 (start reading ⟨.ask, true⟩ (.start
        [.line "yes", .line "c", .line "one", .line "q", .line "2", .interrupt] .calm))).map
      (fun finished => (finished.ending, finished.session.console.script)) =
    some (.faulted ⟨.aborted, some (.ofWord 0 0x0101)⟩, [.line "2", .interrupt]) := by
  have ending : (run 1 (start reading ⟨.ask, true⟩ (.start
        [.line "yes", .line "c", .line "one", .line "q", .line "2"] .calm))).map
      (fun finished => (finished.ending, finished.session.console.script)) =
      some (.faulted ⟨.aborted, some (.ofWord 0 0x0101)⟩, [.line "2"]) := by
    decide +kernel
  obtain ⟨finished, ended, parts⟩ := Option.map_eq_some_iff.mp ending
  obtain ⟨faulted, rest⟩ := Prod.mk.inj parts
  obtain ⟨consumed, -, -, goesOn⟩ := unread_input_has_no_influence ended
  have notOut : ¬finished.ending.IsEndOfInput := by
    rw [faulted]
    intro out
    cases out
  have longer : run 1 (start reading ⟨.ask, true⟩ (.start
      [.line "yes", .line "c", .line "one", .line "q", .line "2", .interrupt] .calm)) =
      some { finished with session := finished.session.prolong [.interrupt] } :=
    goesOn notOut [.interrupt]
  rw [longer]
  simp [faulted, prolong, Console.prolong, rest]

end Session

end MiniatureMachine
