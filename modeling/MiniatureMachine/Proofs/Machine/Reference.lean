import Mathlib.Data.List.Forall2
import MiniatureMachine.Proofs.Isa.Shadowing
import MiniatureMachine.Proofs.Machine.Invariant
import MiniatureMachine.Proofs.Machine.Unattended

/-!
Contract: a machine that is given its instructions, and the session that decodes them.

Owns:
- the execution of an instruction and of one that shadows it;
- the reference machine, which never looks at a word;
- the words that a program is encoded to;
- the simulation of the reference machine by a session on such words.

An instruction that shadows another one may store less in register zero. Nobody sees
it, and after the instruction it is gone.
-/

namespace MiniatureMachine

open Effects

/-! ## Executions of shadowing instructions -/

/-- A bench without what is stored in register zero. -/
def Bench.settled (bench : Bench) : Bench :=
  { bench with state := bench.state.clearRegisterZero }

namespace State

@[simp] theorem number_zero (state : State) : state.number 0 = 0 := rfl

private theorem clearRegisterZero_setRegister (state : State) (word : Word) :
    (state.setRegister 0 word).clearRegisterZero = state.clearRegisterZero := by
  simp [clearRegisterZero, setRegister]

private theorem assign_zero (state : State) (index : Nat) :
    state.assign index 0 = .ok (state.setRegister index 0) := by
  have held : Word.ofInt? 0 = some 0 := by decide
  rw [assign, held]

end State

private theorem Bench.settled_inj {first second : Bench} :
    first.settled = second.settled ↔
      first.state.clearRegisterZero = second.state.clearRegisterZero ∧
        first.console = second.console := by
  simp only [Bench.settled, Bench.mk.injEq]

theorem Bench.settled_setRegister (bench : Bench) (word : Word) :
    ({ bench with state := bench.state.setRegister 0 word } : Bench).settled = bench.settled := by
  unfold Bench.settled
  rw [State.clearRegisterZero_setRegister]

namespace Instruction

variable {decoded written : Instruction} {bench : Bench}

/-- Storing a zero in register zero is as good as doing nothing. -/
theorem settled_of_zeroed {result : EStateM.Result FaultCause Bench Unit}
    (zeroed : result = .ok () { bench with state := bench.state.setRegister 0 0 }) :
    outcome (.ok () bench : EStateM.Result FaultCause Bench Unit) = outcome result ∧
      bench.settled = (left result).settled := by
  subst zeroed
  exact ⟨rfl, (bench.settled_setRegister 0).symm⟩

/-- What is stored in register zero does not matter for a jump. -/
theorem settled_of_linked (bench : Bench) (fetchedAt : Nat) (target : Int) (link : Word) :
    let jumped := Bench.update (State.jump fetchedAt target) bench
    let linked := Bench.update (State.jump fetchedAt target)
      { bench with state := bench.state.setRegister 0 link }
    outcome jumped = outcome linked ∧ (left jumped).settled = (left linked).settled := by
  have sameTest : (bench.state.setRegister 0 link).isCodeAddress target =
      bench.state.isCodeAddress target := rfl
  unfold Bench.update State.jump
  dsimp only
  rw [sameTest]
  cases bench.state.isCodeAddress target with
  | true =>
      let jumped : Bench := { bench with state := { bench.state with pc := target.toNat } }
      exact ⟨rfl, (jumped.settled_setRegister link).symm⟩
  | false => exact ⟨rfl, (bench.settled_setRegister link).symm⟩

/-- A sum with register zero is a copy. -/
theorem execute_add_zero (target source : BitVec 4) (fetchedAt : Nat) :
    execute ⟨.add, [.register target, .register source, .register 0]⟩ fetchedAt =
      execute ⟨.mov, [.register target, .register source]⟩ fetchedAt := by
  have sameSum : ∀ state : State,
      state.compute fetchedAt .add target.toNat source.toNat 0 =
        state.assign target.toNat (state.number source.toNat) := by
    intro state
    unfold State.compute Operation.result?
    dsimp only
    rw [State.number_zero, Int.add_zero]
  exact congrArg Bench.update (funext sameSum)

/-- A difference from register zero is a negation, and they overflow alike. -/
theorem execute_zero_sub (target source : BitVec 4) (fetchedAt : Nat) :
    execute ⟨.sub, [.register target, .register 0, .register source]⟩ fetchedAt =
      execute ⟨.neg, [.register target, .register source]⟩ fetchedAt := by
  have sameDifference : ∀ state : State,
      state.compute fetchedAt .sub target.toNat 0 source.toNat =
        state.assign target.toNat (-state.number source.toNat) := by
    intro state
    unfold State.compute Operation.result?
    dsimp only
    rw [State.number_zero, Int.zero_sub]
  exact congrArg Bench.update (funext sameDifference)

/-- A call with register zero leaves its link there and jumps. -/
theorem execute_call_zero (target : BitVec 8) (fetchedAt : Nat)
    (small : bench.state.pc ≤ memorySize) :
    ∃ link, execute ⟨.call, [.register 0, .unsigned target]⟩ fetchedAt bench =
      Bench.update (State.jump fetchedAt target.toNat)
        { bench with state := bench.state.setRegister 0 link } := by
  have linked : bench.state.assign 0 bench.state.pc =
      .ok (bench.state.setRegister 0 (BitVec.ofInt 16 bench.state.pc)) := by
    rw [State.assign, Word.ofInt?_of_address small]
  have links : Bench.update (fun state => state.assign 0 state.pc) bench = .ok () _ :=
    Bench.update_eq_ok_iff.mpr ⟨_, linked, rfl⟩
  exact ⟨_, bind_of_ok links⟩

/-- An instruction and one that shadows it have the same outcome, and they leave the
same bench once register zero is cleared. A call needs a word for its link. -/
theorem Shadows.execute (shadows : decoded.Shadows written) (fetchedAt : Nat)
    (small : bench.state.pc ≤ memorySize) :
    outcome (decoded.execute fetchedAt bench) = outcome (written.execute fetchedAt bench) ∧
      (left (decoded.execute fetchedAt bench)).settled =
        (left (written.execute fetchedAt bench)).settled := by
  cases shadows with
  | same => exact ⟨rfl, rfl⟩
  | nopForMov | nopForAdd =>
      exact settled_of_zeroed
        (Bench.update_eq_ok_iff.mpr ⟨_, State.assign_zero bench.state 0, rfl⟩)
  | movForAdd target source =>
      rw [execute_add_zero]
      exact ⟨rfl, rfl⟩
  | negForSub target source =>
      rw [execute_zero_sub]
      exact ⟨rfl, rfl⟩
  | jumpForCall target =>
      obtain ⟨link, calls⟩ := execute_call_zero target fetchedAt small
      rw [calls]
      exact settled_of_linked bench fetchedAt target.toNat link

end Instruction

/-! ## The reference machine -/

/-- A machine that is given its instructions. Its memory holds the words of an image,
but they are never decoded. -/
structure Reference where
  state : State
  console : Console
  /-- The number of instructions that have retired. -/
  steps : Nat
deriving DecidableEq, Repr

namespace Reference

def start (image : Image) (console : Console) : Reference :=
  ⟨State.ofImage image, console, 0⟩

/-- One step: the instruction at the program counter is executed. A halted machine
stays as it is. -/
def step (program : List Instruction) (reference : Reference) :
    EStateM.Result FaultCause Reference StepOutcome :=
  let pc := reference.state.pc
  if reference.state.halted then
    .ok .halted reference
  else if reference.console.interrupted then
    .error .interrupted reference
  else
    match program[pc]? with
    | none => .error (.memoryOutOfBounds pc) reference
    | some instruction =>
        match instruction.execute pc ⟨reference.state.advance, reference.console⟩ with
        | .ok () bench =>
            let state := bench.state.clearRegisterZero
            .ok state.retirement ⟨state, bench.console, reference.steps + 1⟩
        | .error cause bench => .error cause ⟨bench.state, bench.console, reference.steps⟩

/-- At most `count` steps, of which only the last may fail to retire. The result is
that of the last step, if there was one. -/
def advance (program : List Instruction) : (count : Nat) → Reference →
    EStateM.Result FaultCause Reference (Option StepOutcome)
  | 0, reference => .ok none reference
  | count + 1, reference =>
      match step program reference with
      | .error cause after => .error cause after
      | .ok .halted after => .ok (some .halted) after
      | .ok .retired after =>
          match advance program count after with
          | .ok none last => .ok (some .retired) last
          | result => result

/-- All that can be seen of a session and of a reference machine is the same. -/
structure Agrees (session : Session) (reference : Reference) : Prop where
  registers : session.state.visibleRegisters = reference.state.visibleRegisters
  memory : session.state.memory = reference.state.memory
  codeSize : session.state.codeSize = reference.state.codeSize
  pc : session.state.pc = reference.state.pc
  halted : session.state.halted = reference.state.halted
  /-- The input that is left and all that was written. -/
  console : session.console = reference.console
  steps : session.steps = reference.steps

/-- Both results are the same success or come from the same cause. The sessions of a
success are related, and those of a fault agree. -/
inductive Follows {α : Type} (related : Session → Reference → Prop) :
    EStateM.Result Fault Session α → EStateM.Result FaultCause Reference α → Prop
  | ok (value : α) {session : Session} {reference : Reference}
      (holds : related session reference) :
      Follows related (.ok value session) (.ok value reference)
  | error {fault : Fault} {session : Session} {reference : Reference}
      (agrees : Agrees session reference) :
      Follows related (.error fault session) (.error fault.cause reference)

theorem Follows.mono {α : Type} {related weaker : Session → Reference → Prop}
    {result : EStateM.Result Fault Session α} {other : EStateM.Result FaultCause Reference α}
    (follows : Follows related result other)
    (weakens : ∀ session reference, related session reference → weaker session reference) :
    Follows weaker result other := by
  cases follows with
  | ok value holds => exact .ok value (weakens _ _ holds)
  | error agrees => exact .error agrees

/-! ## The simulation -/

/-- The decoder gives the instructions of the program, or instructions that shadow
them. -/
def Encodes (words : List Word) (program : List Instruction) : Prop :=
  List.Forall₂ (fun word instruction => (Instruction.decode word).Shadows instruction)
    words program

/-- Inside the code the cell at the counter holds a word of the program. -/
theorem Encodes.fetches {words : List Word} {program : List Instruction}
    (encodes : Encodes words program) {state : State} (sound : state.SoundFor (.ofWords words))
    (inCode : state.pc < state.codeSize) :
    ∃ word instruction, state.cell? state.pc = some (.code (some word)) ∧
      program[state.pc]? = some instruction ∧ (Instruction.decode word).Shadows instruction := by
  obtain ⟨word?, given, held⟩ := sound.code _ inCode
  rw [Image.ofWords, List.getElem?_map] at given
  obtain ⟨word, found, rfl⟩ := Option.map_eq_some_iff.mp given
  obtain ⟨inWords, rfl⟩ := List.getElem?_eq_some_iff.mp found
  have inProgram := encodes.length_eq ▸ inWords
  exact ⟨_, program[state.pc], held, List.getElem?_eq_getElem inProgram,
    encodes.get inWords inProgram⟩

/-- An unattended session on some words that is where a reference machine is. -/
structure Mirrors (words : List Word) (session : Session) (reference : Reference) : Prop where
  unattended : session.Unattended
  sound : session.state.SoundFor (.ofWords words)
  state : session.state = reference.state
  console : session.console = reference.console
  steps : session.steps = reference.steps

variable {words : List Word} {program : List Instruction} {session : Session}
  {reference : Reference}

theorem Mirrors.agrees (mirrors : Mirrors words session reference) :
    Agrees session reference where
  registers := congrArg State.visibleRegisters mirrors.state
  memory := congrArg State.memory mirrors.state
  codeSize := congrArg State.codeSize mirrors.state
  pc := congrArg State.pc mirrors.state
  halted := congrArg State.halted mirrors.state
  console := mirrors.console
  steps := mirrors.steps

/-- Benches that are the same once register zero is cleared look the same. -/
theorem agrees_of_settled
    (sameSteps : session.steps = reference.steps)
    (settled : Bench.settled ⟨session.state, session.console⟩ =
      Bench.settled ⟨reference.state, reference.console⟩) : Agrees session reference where
  registers := by
    have sameRegister : ∀ index, session.state.register index =
        reference.state.register index := by
      intro index
      have cleared := congrArg (fun bench => bench.state.register index) settled
      simp only [Bench.settled, State.register_clearRegisterZero] at cleared
      exact cleared
    exact List.map_congr_left fun index _ => sameRegister index
  memory := congrArg (fun bench => bench.state.memory) settled
  codeSize := congrArg (fun bench => bench.state.codeSize) settled
  pc := congrArg (fun bench => bench.state.pc) settled
  halted := congrArg (fun bench => bench.state.halted) settled
  console := congrArg Bench.console settled
  steps := sameSteps

section Steps

variable (encodes : Encodes words program) (fits : words.length ≤ memorySize)
  (mirrors : Mirrors words session reference)

include encodes mirrors

theorem Mirrors.fetches (inCode : session.state.pc < session.state.codeSize) :
    ∃ word instruction, session.state.cell? session.state.pc = some (.code (some word)) ∧
      program[reference.state.pc]? = some instruction ∧
      (Instruction.decode word).Shadows instruction :=
  mirrors.state ▸ encodes.fetches mirrors.sound inCode

include fits in
theorem Mirrors.ends (outside : session.state.codeSize ≤ session.state.pc) :
    program[reference.state.pc]? = none := by
  have codeSize : session.state.codeSize = program.length := by
    rw [mirrors.sound.codeSize_eq, ← encodes.length_eq, Image.codeSize, Image.ofWords,
      List.length_map, Nat.min_eq_left fits]
  rw [← mirrors.state]
  exact List.getElem?_eq_none (codeSize ▸ outside)

omit encodes in
private theorem Mirrors.step_halted (halted : session.state.halted = true) :
    Follows (Mirrors words) (Session.step session) (step program reference) := by
  have alsoHalted : reference.state.halted = true := mirrors.state ▸ halted
  unfold Reference.step
  rw [Session.step_of_halted halted, if_pos alsoHalted]
  exact .ok StepOutcome.halted mirrors

omit encodes in
private theorem Mirrors.step_interrupted (running : session.state.halted = false)
    (raised : session.console.interrupted = true) :
    Follows (Mirrors words) (Session.step session) (step program reference) := by
  have alsoRunning : ¬reference.state.halted = true :=
    Bool.eq_false_iff.mp (mirrors.state ▸ running)
  have alsoRaised : reference.console.interrupted = true := mirrors.console ▸ raised
  have refused := Session.fetch_of_interrupted raised
  unfold Reference.step
  dsimp only
  rw [if_neg alsoRunning, if_pos alsoRaised,
    mirrors.unattended.step_of_fetch_error running refused]
  exact .error mirrors.agrees

include fits in
private theorem Mirrors.step_outside (running : session.state.halted = false)
    (calm : session.console.interrupted = false)
    (outside : session.state.codeSize ≤ session.state.pc) :
    Follows (Mirrors words) (Session.step session) (step program reference) := by
  have ended := mirrors.ends encodes fits outside
  have alsoRunning : ¬reference.state.halted = true :=
    Bool.eq_false_iff.mp (mirrors.state ▸ running)
  have alsoCalm : ¬reference.console.interrupted = true :=
    Bool.eq_false_iff.mp (mirrors.console ▸ calm)
  have refused := Session.fetch_of_outside calm outside
  unfold Reference.step
  dsimp only
  rw [if_neg alsoRunning, if_neg alsoCalm, ended,
    mirrors.unattended.step_of_fetch_error running refused, mirrors.state]
  exact .error mirrors.agrees

/-- An instruction that shadows the one in line is executed like it. -/
theorem Mirrors.step_executed (running : session.state.halted = false)
    (calm : session.console.interrupted = false)
    (inCode : session.state.pc < session.state.codeSize) :
    Follows (Mirrors words) (Session.step session) (step program reference) := by
  obtain ⟨word, instruction, held, found, shadows⟩ := mirrors.fetches encodes inCode
  obtain ⟨state, console, steps⟩ := reference
  obtain ⟨unattended, sound, rfl, rfl, rfl⟩ := mirrors
  have fetched := Session.fetch_of_held calm inCode held
  have small : (Bench.mk session.state.advance session.console).state.pc ≤ memorySize := by
    rw [sound.codeSize_eq] at inCode
    exact (Nat.lt_min.mp inCode).2
  obtain ⟨sameOutcome, sameLeft⟩ := shadows.execute session.state.pc small
  unfold Reference.step
  dsimp only
  rw [if_neg (Bool.eq_false_iff.mp running), if_neg (Bool.eq_false_iff.mp calm), found]
  dsimp only
  cases decodedRun : (Instruction.decode word).execute session.state.pc
      ⟨session.state.advance, session.console⟩ with
  | ok _ decodedBench =>
      rw [decodedRun] at sameOutcome sameLeft
      have writtenRun := eq_ok_of_outcome sameOutcome.symm
      generalize left (instruction.execute session.state.pc
        ⟨session.state.advance, session.console⟩) = writtenBench at writtenRun sameLeft
      obtain ⟨stepped, stays⟩ :=
        unattended.step_of_ok running fetched (Session.perform_of_ok decodedRun)
      obtain ⟨sameState, sameConsole⟩ := Bench.settled_inj.mp sameLeft
      rw [writtenRun, stepped]
      dsimp only
      rw [← sameState, ← sameConsole]
      exact .ok _
        { unattended := stays
          sound := Session.soundFor_of_step sound stepped
          state := rfl
          console := rfl
          steps := rfl }
  | error cause decodedBench =>
      rw [decodedRun] at sameOutcome sameLeft
      have writtenRun := eq_error_of_outcome sameOutcome.symm
      generalize left (instruction.execute session.state.pc
        ⟨session.state.advance, session.console⟩) = writtenBench at writtenRun sameLeft
      rw [writtenRun, unattended.step_of_perform_error running fetched
        (Session.perform_of_error decodedRun)]
      exact .error (agrees_of_settled rfl sameLeft)

include fits in
/-- A step of the session does what the step of the reference machine does. -/
theorem Mirrors.step :
    Follows (Mirrors words) (Session.step session) (step program reference) := by
  cases halted : session.state.halted with
  | true => exact mirrors.step_halted halted
  | false =>
      cases calm : session.console.interrupted with
      | true => exact mirrors.step_interrupted halted calm
      | false =>
          by_cases inCode : session.state.pc < session.state.codeSize
          · exact mirrors.step_executed encodes halted calm inCode
          · exact mirrors.step_outside encodes fits halted calm (Nat.not_lt.mp inCode)

include fits in
theorem Mirrors.advance (count : Nat) :
    Follows (Mirrors words) (Session.advance count session) (advance program count reference) := by
  induction count generalizing session reference with
  | zero => exact .ok none mirrors
  | succ count inductionHypothesis =>
      have stepped := mirrors.step encodes fits
      unfold Session.advance Reference.advance
      generalize Session.step session = sessionStep at stepped ⊢
      generalize Reference.step program reference = referenceStep at stepped ⊢
      cases stepped with
      | error agrees => exact .error agrees
      | ok outcome after =>
          cases outcome with
          | halted => exact .ok (some StepOutcome.halted) after
          | retired =>
              rename_i sessionAfter referenceAfter
              have later := inductionHypothesis after
              dsimp only
              generalize Session.advance count sessionAfter = sessionRest at later ⊢
              generalize Reference.advance program count referenceAfter = referenceRest at later ⊢
              cases later with
              | error agrees => exact .error agrees
              | ok outcome? last =>
                  cases outcome? with
                  | none => exact .ok (some StepOutcome.retired) last
                  | some outcome => exact .ok (some outcome) last

end Steps

private theorem mirrors_start (words : List Word) (showNext : Bool) (console : Console) :
    Mirrors words (Session.start (.ofWords words) ⟨.disabled, showNext⟩ console)
      (start (.ofWords words) console) where
  unattended := Session.unattended_start _ showNext console
  sound := State.soundFor_ofImage _
  state := rfl
  console := rfl
  steps := rfl

/-- A session on the words of a program agrees with the reference machine after any
number of steps. -/
theorem agrees_of_encodes (encodes : Encodes words program)
    (fits : words.length ≤ memorySize) (showNext : Bool) (console : Console) (count : Nat) :
    Follows Agrees
      (Session.advance count (Session.start (.ofWords words) ⟨.disabled, showNext⟩ console))
      (advance program count (start (.ofWords words) console)) :=
  ((mirrors_start words showNext console).advance encodes fits count).mono
    fun _ _ => Mirrors.agrees

end Reference

end MiniatureMachine
