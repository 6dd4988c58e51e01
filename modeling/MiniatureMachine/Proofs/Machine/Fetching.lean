import MiniatureMachine.Proofs.Machine.Footprint
import MiniatureMachine.Proofs.Machine.Memory
import MiniatureMachine.Proofs.Machine.Unattended

/-!
Contract: of the code, a run depends only on the cells that it fetches.

Owns:
- states that are the same outside their code cells, and what executes alike in them;
- the addresses that a run fetches;
- two runs on images that agree at these addresses.

No instruction looks at a code cell: a load is refused there, and a jump asks only for the
size of the code. So the fetch is the one place where two images can make a difference.
-/

namespace MiniatureMachine

open Effects

namespace State

/-- Two states that differ at most in their code cells. -/
structure EqualOutsideCode (first second : State) : Prop where
  registers : second.registers = first.registers
  pc : second.pc = first.pc
  codeSize : second.codeSize = first.codeSize
  halted : second.halted = first.halted
  data : ∀ address, first.codeSize ≤ address → second.cell? address = first.cell? address

variable {first second : State} (same : EqualOutsideCode first second)

private theorem equalOutsideCode_ofImage {image other : Image}
    (sameSize : (ofImage image).codeSize = (ofImage other).codeSize) :
    EqualOutsideCode (ofImage image) (ofImage other) where
  registers := rfl
  pc := rfl
  codeSize := sameSize.symm
  halted := rfl
  data := by
    intro address notCode
    have notOther : (ofImage other).codeSize ≤ address := by
      rw [← sameSize]
      exact notCode
    by_cases inMemory : address < memorySize
    · rw [recalls_ofImage image address notCode inMemory,
        recalls_ofImage other address notOther inMemory]
    · simp [cell?, inMemory]

include same

/-! ## What is read in such states -/

theorem EqualOutsideCode.register_eq (index : Nat) :
    second.register index = first.register index := by
  rw [register, register, same.registers]

private theorem EqualOutsideCode.dataAt_eq {address : Nat} (notCode : first.codeSize ≤ address) :
    second.dataAt address = first.dataAt address := by
  rw [dataAt, dataAt, same.data address notCode]

/-- They agree wherever an instruction looks. -/
theorem EqualOutsideCode.agrees (instruction : Instruction) : instruction.Agrees first second where
  pc := same.pc.symm
  codeSize := same.codeSize.symm
  registers _ _ := (same.register_eq _).symm
  cell _ _ notCode _ := (same.dataAt_eq notCode).symm

/-! ## What is written in such states -/

theorem EqualOutsideCode.setRegister (index : Nat) (word : Word) :
    EqualOutsideCode (first.setRegister index word) (second.setRegister index word) :=
  { same with registers := congrArg (·.setIfInBounds index word) same.registers }

theorem EqualOutsideCode.setPc (address : Nat) :
    EqualOutsideCode { first with pc := address } { second with pc := address } :=
  { same with pc := rfl }

theorem EqualOutsideCode.setData (address : Nat) (word : Word) :
    EqualOutsideCode (first.setData address word) (second.setData address word) :=
  { same with
    data := by
      intro other notCode
      have kept := same.data other notCode
      simp only [cell?, State.setData, Vector.getElem?_setIfInBounds] at kept ⊢
      rw [kept] }

theorem EqualOutsideCode.advance : EqualOutsideCode first.advance second.advance :=
  { same with pc := congrArg (· + 1) same.pc }

theorem EqualOutsideCode.clearRegisterZero :
    EqualOutsideCode first.clearRegisterZero second.clearRegisterZero :=
  same.setRegister 0 0

theorem EqualOutsideCode.apply (writing : Writing) :
    EqualOutsideCode (writing.apply first) (writing.apply second) := by
  cases writing with
  | nothing => exact same
  | register index word => exact same.setRegister index word
  | cell address word => exact same.setData address word
  | pc address => exact same.setPc address
  | call index link address => exact (same.setRegister index link).setPc address
  | halted => exact { same with halted := rfl }

end State

/-! ## Instructions -/

namespace Bench

/-- One console, and states that are the same outside the code. -/
structure EqualOutsideCode (first second : Bench) : Prop where
  state : first.state.EqualOutsideCode second.state
  console : second.console = first.console

end Bench

/-- An instruction does the same writing in both. -/
theorem Instruction.respects_execute (instruction : Instruction) (fetchedAt : Nat) :
    Respects Bench.EqualOutsideCode (instruction.execute fetchedAt) := by
  rintro ⟨first, console⟩ ⟨second, console'⟩ ⟨same, sameConsole⟩
  obtain rfl : console = console' := sameConsole.symm
  dsimp only at same
  have effect := @sameEffect_execute instruction console first second fetchedAt
    (same.agrees instruction)
  generalize instruction.execute fetchedAt ⟨first, console⟩ = result at effect ⊢
  generalize instruction.execute fetchedAt ⟨second, console⟩ = result' at effect ⊢
  cases effect with
  | succeeds writes converses => exact .ok () ⟨same.apply _, rfl⟩
  | fails cause writing after => exact .error cause ⟨same.apply writing, rfl⟩

/-! ## Fetches -/

namespace Session

/-- The address that the next step fetches from: where it takes a word, or where it
finds a malformed cell. A step that is interrupted before, or outside the code, does
not fetch. -/
def fetched? (session : Session) : Option Nat :=
  if session.state.halted then none
  else
    match askAboutDebugging session with
    | .error _ _ => none
    | .ok () asked =>
        match fetch asked with
        | .ok entry _ => some entry.1
        | .error ⟨.badInstruction pc, _⟩ _ => some pc
        | .error _ _ => none

/-- The addresses that the next steps fetch from, for at most `count` steps. -/
def fetchedAddresses : (count : Nat) → Session → List Nat
  | 0, _ => []
  | count + 1, session =>
      session.fetched?.toList ++
        match step session with
        | .ok .retired after => fetchedAddresses count after
        | .ok .halted _ | .error _ _ => []

private theorem Unattended.fetched?_of_inside {session : Session} (unattended : session.Unattended)
    (running : session.state.halted = false) (calm : session.console.interrupted = false)
    (inCode : session.state.pc < session.state.codeSize) :
    session.fetched? = some session.state.pc := by
  unfold fetched?
  rw [running, askAboutDebugging_of_answered unattended.answered]
  dsimp only
  rw [if_neg Bool.false_ne_true]
  cases fetching : fetch session with
  | ok entry after =>
      obtain ⟨-, -, -, address, -⟩ := fetch_eq_ok fetching
      exact congrArg some address
  | error fault after =>
      obtain ⟨-, cause, rfl, refuses⟩ := fetch_eq_error fetching
      cases refuses with
      | interrupted raised => exact absurd (calm.symm.trans raised) Bool.false_ne_true
      | outOfBounds outside => exact absurd inCode (Nat.not_lt.mpr outside)
      | malformed inCode unreadable => rfl

/-- Fewer steps fetch from the first of the addresses. -/
theorem fetchedAddresses_isPrefix {taken count : Nat} (fewer : taken ≤ count) (session : Session) :
    fetchedAddresses taken session <+: fetchedAddresses count session := by
  induction taken generalizing count session with
  | zero => exact List.nil_prefix
  | succ taken inductionHypothesis =>
      cases count with
      | zero => cases fewer
      | succ count =>
          apply (List.prefix_append_right_inj _).mpr
          split
          · exact inductionHypothesis (Nat.le_of_succ_le_succ fewer) _
          all_goals exact List.prefix_rfl

/-! ## One step -/

/-- Sessions that differ at most in their code cells and in how they are set up. -/
structure EqualOutsideCode (first second : Session) : Prop where
  state : first.state.EqualOutsideCode second.state
  console : second.console = first.console
  steps : second.steps = first.steps

variable {first second : Session}

theorem EqualOutsideCode.fetch (same : EqualOutsideCode first second)
    (sameCell : first.console.interrupted = false → first.state.pc < first.state.codeSize →
      second.state.cell? first.state.pc = first.state.cell? first.state.pc) :
    SameUpTo EqualOutsideCode (Session.fetch first) (Session.fetch second) := by
  unfold Session.fetch
  rw [get_bind, get_bind, same.console, same.state.pc, same.state.codeSize]
  dsimp only
  by_cases raised : first.console.interrupted = true
  · rw [if_pos raised, if_pos raised]
    exact .error _ same
  rw [if_neg raised, if_neg raised]
  by_cases outside : first.state.codeSize ≤ first.state.pc
  · rw [if_pos outside, if_pos outside]
    exact .error _ same
  rw [if_neg outside, if_neg outside,
    sameCell (Bool.not_eq_true _ ▸ raised) (Nat.lt_of_not_le outside)]
  rcases first.state.cell? first.state.pc with _ | (_ | word) | word
  case some.code.some =>
    exact .ok _ ⟨same.state.setPc _, rfl, same.steps⟩
  all_goals exact .error _ same

private theorem respects_perform (pc : Nat) (word : Word) :
    Respects EqualOutsideCode (perform pc word) := by
  rw [perform_eq_lift]
  apply ((Instruction.decode word).respects_execute pc).lift
  · intro first second same
    exact ⟨same.state, same.console⟩
  · intro first second bench bench' same sameBench
    exact ⟨sameBench.state, sameBench.console, same.steps⟩

theorem EqualOutsideCode.retire (same : EqualOutsideCode first second) :
    EqualOutsideCode first.retire second.retire where
  state := same.state.clearRegisterZero
  console := same.console
  steps := congrArg (· + 1) same.steps

/-- Unattended sessions on two images, at the same point of their runs. -/
structure Paired (image other : Image) (first second : Session) : Prop where
  same : EqualOutsideCode first second
  unattended : first.Unattended
  otherUnattended : second.Unattended
  sound : first.state.SoundFor image
  otherSound : second.state.SoundFor other

variable {image other : Image}

/-- Where the images agree, so do the code cells. -/
theorem Paired.cell?_eq (paired : Paired image other first second) {address : Nat}
    (inCode : address < first.state.codeSize)
    (agree : image.words[address]? = other.words[address]?) :
    second.state.cell? address = first.state.cell? address := by
  obtain ⟨word?, given, held⟩ := paired.sound.code address inCode
  obtain ⟨word?', given', held'⟩ :=
    paired.otherSound.code address (by rw [paired.same.state.codeSize]; exact inCode)
  rw [given, given'] at agree
  cases agree
  rw [held, held']

theorem Paired.step (paired : Paired image other first second)
    (agree : ∀ address ∈ first.fetched?, image.words[address]? = other.words[address]?) :
    SameUpTo EqualOutsideCode (Session.step first) (Session.step second) := by
  have same := paired.same
  by_cases halted : first.state.halted = true
  · rw [step_of_halted halted, step_of_halted (same.state.halted.trans halted)]
    exact .ok _ same
  have running : first.state.halted = false := Bool.not_eq_true _ ▸ halted
  have otherRunning : second.state.halted = false := same.state.halted.trans running
  have fetches := same.fetch fun calm inCode =>
    paired.cell?_eq inCode (agree _ (paired.unattended.fetched?_of_inside running calm inCode))
  cases fetching : Session.fetch first <;> cases otherFetching : Session.fetch second <;>
    rw [fetching, otherFetching] at fetches <;> cases fetches
  case error.error fault after after' sameAfter =>
    rw [paired.unattended.step_of_fetch_error running fetching,
      paired.otherUnattended.step_of_fetch_error otherRunning otherFetching]
    exact .error fault sameAfter
  case ok.ok entry fetched fetched' sameFetched =>
    have performs := respects_perform entry.1 entry.2 _ _ sameFetched
    cases executed : perform entry.1 entry.2 fetched <;>
      cases otherExecuted : perform entry.1 entry.2 fetched' <;>
      rw [executed, otherExecuted] at performs <;> cases performs
    case error.error fault after after' sameAfter =>
      rw [paired.unattended.step_of_perform_error running fetching executed,
        paired.otherUnattended.step_of_perform_error otherRunning otherFetching otherExecuted]
      exact .error fault sameAfter
    case ok.ok performed performed' samePerformed =>
      have sameOutcome :
          performed'.retire.state.retirement = performed.retire.state.retirement := by
        unfold State.retirement
        rw [samePerformed.retire.state.halted]
      rw [(paired.unattended.step_of_ok running fetching executed).1,
        (paired.otherUnattended.step_of_ok otherRunning otherFetching otherExecuted).1, sameOutcome]
      exact .ok _ samePerformed.retire

theorem Paired.of_step {outcome outcome' : StepOutcome} {after after' : Session}
    (paired : Paired image other first second) (same : EqualOutsideCode after after')
    (stepped : Session.step first = .ok outcome after)
    (otherStepped : Session.step second = .ok outcome' after') :
    Paired image other after after' where
  same := same
  unattended := paired.unattended.of_step stepped
  otherUnattended := paired.otherUnattended.of_step otherStepped
  sound := soundFor_of_step paired.sound stepped
  otherSound := soundFor_of_step paired.otherSound otherStepped

/-! ## Whole runs -/

/-- By induction on the number of steps: each step fetches where the images agree, and
so leaves the sessions paired. -/
theorem Paired.advance {count : Nat} (paired : Paired image other first second)
    (agree : ∀ address ∈ fetchedAddresses count first,
      image.words[address]? = other.words[address]?) :
    SameUpTo EqualOutsideCode (Session.advance count first) (Session.advance count second) := by
  induction count generalizing first second with
  | zero => exact .ok none paired.same
  | succ count inductionHypothesis =>
      have steps := paired.step fun address fetches =>
        agree address (List.mem_append_left _ (Option.mem_toList.mpr fetches))
      unfold Session.advance
      cases stepped : Session.step first <;> cases otherStepped : Session.step second <;>
        rw [stepped, otherStepped] at steps <;> cases steps
      case error.error fault after after' sameAfter => exact .error fault sameAfter
      case ok.ok outcome after after' sameAfter =>
        cases outcome with
        | halted => exact .ok _ sameAfter
        | retired =>
            have later := inductionHypothesis (paired.of_step sameAfter stepped otherStepped)
              fun address fetches => agree address <| by
                unfold fetchedAddresses
                rw [stepped]
                exact List.mem_append_right _ fetches
            dsimp only
            generalize Session.advance count after = result at later ⊢
            generalize Session.advance count after' = result' at later ⊢
            cases later with
            | error fault sameLast => exact .error fault sameLast
            | ok outcome? sameLast => cases outcome? <;> exact .ok _ sameLast

private theorem paired_start {image other : Image} (showNext : Bool) (console : Console)
    (sameSize : (State.ofImage image).codeSize = (State.ofImage other).codeSize) :
    Paired image other (start image ⟨.disabled, showNext⟩ console)
      (start other ⟨.disabled, showNext⟩ console) where
  same := ⟨State.equalOutsideCode_ofImage sameSize, rfl, rfl⟩
  unattended := unattended_start image showNext console
  otherUnattended := unattended_start other showNext console
  sound := State.soundFor_ofImage image
  otherSound := State.soundFor_ofImage other

structure EndsEqual (first second : Finished) : Prop where
  ending : second.ending = first.ending
  session : EqualOutsideCode first.session second.session

theorem EqualOutsideCode.report (same : EqualOutsideCode first second) (fault : Fault) :
    EqualOutsideCode (Session.report fault first) (Session.report fault second) := by
  unfold Session.report
  rw [same.console]
  split <;> exact ⟨same.state, rfl, same.steps⟩

/-- A run is the steps up to its end, and the report of a fault. -/
theorem run_eq (fuel : Nat) (session : Session) :
    run fuel session =
      match Session.advance fuel session with
      | .ok (some .halted) after => some ⟨.halted, after⟩
      | .ok _ _ => none
      | .error fault after => some ⟨.faulted fault, Session.report fault after⟩ := by
  induction fuel generalizing session with
  | zero => rfl
  | succ fuel inductionHypothesis =>
      unfold run Session.advance
      cases Session.step session with
      | error fault after => rfl
      | ok outcome after =>
          cases outcome with
          | halted => rfl
          | retired =>
              dsimp only
              rw [inductionHypothesis]
              rcases Session.advance fuel after with ⟨_ | outcome, last⟩ | ⟨fault, last⟩ <;> rfl

/-- Runs end in the same way when their steps agree. -/
theorem endsEqual_of_advance {fuel : Nat}
    (advanced : SameUpTo EqualOutsideCode (Session.advance fuel first)
      (Session.advance fuel second)) :
    Option.Rel EndsEqual (run fuel first) (run fuel second) := by
  rw [run_eq, run_eq]
  generalize Session.advance fuel first = result at advanced ⊢
  generalize Session.advance fuel second = result' at advanced ⊢
  cases advanced with
  | error fault same => exact .some ⟨rfl, same.report fault⟩
  | ok outcome? same =>
      rcases outcome? with _ | _ | _
      · exact .none
      · exact .none
      · exact .some ⟨rfl, same⟩

/-- Only the cells that are fetched count. On images with equally many code cells, with
the same console, two runs without the debugger agree for as long as the images agree
where the first run fetches: in all but the code cells, in the console, in the number of
steps and in the fault, if there is one. -/
theorem unfetched_cells_have_no_influence {image other : Image} {showNext : Bool}
    {console : Console} {count : Nat}
    (sameSize : (State.ofImage image).codeSize = (State.ofImage other).codeSize)
    (agree : ∀ address ∈ fetchedAddresses count (start image ⟨.disabled, showNext⟩ console),
      image.words[address]? = other.words[address]?) :
    ∀ taken ≤ count,
      SameUpTo EqualOutsideCode
          (Session.advance taken (start image ⟨.disabled, showNext⟩ console))
          (Session.advance taken (start other ⟨.disabled, showNext⟩ console)) ∧
        Option.Rel EndsEqual (run taken (start image ⟨.disabled, showNext⟩ console))
          (run taken (start other ⟨.disabled, showNext⟩ console)) := by
  intro taken fewer
  have advanced : SameUpTo EqualOutsideCode
      (Session.advance taken (start image ⟨.disabled, showNext⟩ console))
      (Session.advance taken (start other ⟨.disabled, showNext⟩ console)) :=
    (paired_start showNext console sameSize).advance fun address fetches =>
      agree address ((fetchedAddresses_isPrefix fewer _).subset fetches)
  exact ⟨advanced, endsEqual_of_advance advanced⟩

/-- A program that jumps over its second line, reads a number into register 1, stores it
in cell 9 and runs into its last line. -/
def jumping (skipped last : Option Word) : Image :=
  ⟨[some 0xB002, skipped, some 0x0101, some 0x3109, last]⟩

/-- The second line is not fetched. The last line is fetched although it is malformed. -/
theorem jumping_ignores_skipped :
    fetchedAddresses 5 (start (jumping none none) ⟨.disabled, true⟩ (.start [.line "7"] .calm)) =
        [0, 2, 3, 4] ∧
      Effects.outcome (Session.advance 4 (start (jumping none none) ⟨.disabled, true⟩
        (.start [.line "7"] .calm))) = .error (.bare (.badInstruction 4)) ∧
      SameUpTo EqualOutsideCode
        (Session.advance 4 (start (jumping none none) ⟨.disabled, true⟩
          (.start [.line "7"] .calm)))
        (Session.advance 4 (start (jumping (some 0x0000) none) ⟨.disabled, true⟩
          (.start [.line "7"] .calm))) := by
  have fetches : fetchedAddresses 5 (start (jumping none none) ⟨.disabled, true⟩
      (.start [.line "7"] .calm)) = [0, 2, 3, 4] := by
    decide +kernel
  have agree : ∀ address ∈ fetchedAddresses 5 (start (jumping none none) ⟨.disabled, true⟩
      (.start [.line "7"] .calm)),
      (jumping none none).words[address]? = (jumping (some 0x0000) none).words[address]? := by
    rw [fetches]
    decide
  have sameSize : (State.ofImage (jumping none none)).codeSize =
      (State.ofImage (jumping (some 0x0000) none)).codeSize := by
    decide
  have alike := unfetched_cells_have_no_influence sameSize agree 4 (by decide)
  exact ⟨fetches, by decide +kernel, alike.1⟩

end Session

end MiniatureMachine
