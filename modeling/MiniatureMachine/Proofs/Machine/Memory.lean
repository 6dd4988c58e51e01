import MiniatureMachine.Proofs.Machine.Invariant

/-!
Contract: what a run reads from memory is what it has written there.

Owns:
- the instruction in line and the store that it makes;
- runs with the stores that have retired in them;
- the data cells after a run, and the values that loads deliver;
- the address in the message of a refused access.

The history of a run lists its stores, the latest first, with their effective addresses
as mathematical values. Looking an address up in it gives the most recent store there.
-/

namespace MiniatureMachine

open Effects

private theorem FaultCause.exists_of_invalidMemoryTarget {cause : FaultCause}
    (invalid : cause.code = .invalidMemoryTarget) :
    ∃ pc access target, cause = .invalidMemoryTarget pc access target := by
  cases cause with
  | invalidMemoryTarget pc access target => exact ⟨pc, access, target, rfl⟩
  | _ => cases invalid

private theorem Fault.message_of_invalidMemoryTarget {fault : Fault} {pc : Nat} {access : Access}
    {target : Int} (invalid : fault.cause = .invalidMemoryTarget pc access target) :
    fault.report.message = "Invalid " ++ access.text ++ s!" target at pc {pc}: {target}" := by
  show fault.cause.message = _
  rw [invalid]
  rfl

namespace State

/-- The data cells hold what was stored there last, and zero where nothing was. -/
def Recalls (stores : List (Int × Word)) (state : State) : Prop :=
  ∀ address : Nat, state.codeSize ≤ address → address < memorySize →
    state.cell? address = some (.data ((stores.lookup (address : Int)).getD 0))

variable {stores : List (Int × Word)} {state other : State} {target : Int}

theorem recalls_ofImage (image : Image) : (ofImage image).Recalls [] := by
  intro address notCode inMemory
  have behind : image.words.length ≤ address := by
    simp only [ofImage, Image.codeSize] at notCode
    omega
  rw [cell?_ofImage image inMemory, List.getElem?_eq_none behind]
  rfl

theorem Recalls.congr (recalls : state.Recalls stores) (sameMemory : other.memory = state.memory)
    (sameSize : other.codeSize = state.codeSize) : other.Recalls stores := by
  intro address notCode inMemory
  have held := recalls address (sameSize ▸ notCode) inMemory
  unfold cell? at held ⊢
  rw [sameMemory]
  exact held

theorem Recalls.setData (recalls : state.Recalls stores)
    (isData : state.isDataAddress target = true) (word : Word) :
    (state.setData target.toNat word).Recalls ((target, word) :: stores) := by
  obtain ⟨stored, -, inMemory, rfl⟩ := isDataAddress_iff.mp isData
  intro address behind below
  by_cases same : address = stored
  · subst same
    rw [Int.toNat_natCast, cell?_setData_same state word inMemory]
    simp
  · have elsewhere : ((address : Int) == (stored : Int)) = false := by
      simp only [beq_eq_false_iff_ne]
      omega
    rw [Int.toNat_natCast, cell?_setData_other state word same, List.lookup_cons, elsewhere]
    exact recalls address behind below

theorem Recalls.dataAt (recalls : state.Recalls stores)
    (isData : state.isDataAddress target = true) :
    state.dataAt target.toNat = (stores.lookup target).getD 0 := by
  obtain ⟨address, notCode, inMemory, rfl⟩ := isDataAddress_iff.mp isData
  simp only [State.dataAt, Int.toNat_natCast, recalls address notCode inMemory]

private theorem isDataAddress_iff_bounds :
    state.isDataAddress target = true ↔ (state.codeSize : Int) ≤ target ∧ target < memorySize := by
  simp [isDataAddress]

-- Fetching moves only the counter, which addresses do not depend on.
private theorem isDataAddress_advance (state : State) (target : Int) :
    state.advance.isDataAddress target = state.isDataAddress target :=
  rfl

private theorem access?_advance (instruction : Instruction) (state : State) :
    instruction.access? state.advance = instruction.access? state :=
  rfl

end State

namespace Session

/-! ## Histories -/

/-- The instruction that the next step executes, if it gets so far. -/
def inLine? (session : Session) : Option Instruction :=
  if session.state.halted then none
  else
    match session.state.cell? session.state.pc with
    | some (.code (some word)) => some (Instruction.decode word)
    | _ => none

/-- The effective address and the word of the store that is in line. -/
def store? (session : Session) : Option (Int × Word) := do
  let instruction ← session.inLine?
  match instruction.access? session.state with
  | some (.store, target) => some (target, session.state.register (instruction.register 0))
  | _ => none

/-- A run up to a session, with the stores that have retired in it, the latest first.
Between two steps the host may replace the console. -/
inductive Recorded (image : Image) (options : SessionOptions) :
    List (Int × Word) → Session → Prop
  | start (console : Console) : Recorded image options [] (start image options console)
  | host {stores : List (Int × Word)} {session : Session}
      (recorded : Recorded image options stores session) (console : Console) :
      Recorded image options stores { session with console := console }
  | step {stores : List (Int × Word)} {session after : Session} {outcome : StepOutcome}
      (recorded : Recorded image options stores session)
      (stepped : Session.step session = .ok outcome after) :
      Recorded image options (session.store?.toList ++ stores) after

variable {image : Image} {options : SessionOptions} {stores : List (Int × Word)}
  {session after : Session} {outcome : StepOutcome} {fault : Fault} {instruction : Instruction}

theorem inLine?_of_held {word : Word} (running : session.state.halted = false)
    (held : session.state.cell? session.state.pc = some (.code (some word))) :
    session.inLine? = some (Instruction.decode word) := by
  simp [inLine?, running, held]

private theorem running_of_inLine? (inLine : session.inLine? = some instruction) :
    session.state.halted = false := by
  unfold inLine? at inLine
  cases halted : session.state.halted with
  | false => rfl
  | true => simp [halted] at inLine

/-- Every reachable session has a history. -/
theorem Reachable.exists_recorded (reached : Reachable image options session) :
    ∃ stores, Recorded image options stores session := by
  induction reached with
  | start console => exact ⟨[], .start console⟩
  | host reached console inductionHypothesis =>
      obtain ⟨stores, recorded⟩ := inductionHypothesis
      exact ⟨stores, recorded.host console⟩
  | step reached stepped inductionHypothesis =>
      obtain ⟨stores, recorded⟩ := inductionHypothesis
      exact ⟨_, recorded.step stepped⟩

/-! ## The memory along a run -/

private theorem recalls_of_step (recalls : session.state.Recalls stores)
    (stepped : step session = .ok outcome after) :
    after.state.Recalls (session.store?.toList ++ stores) := by
  by_cases halted : session.state.halted = true
  · have noStore : session.store? = none := by simp [store?, inLine?, halted]
    rw [step_of_halted halted] at stepped
    cases stepped
    rw [noStore]
    exact recalls
  have running := Bool.not_eq_true _ ▸ halted
  obtain ⟨word, console, bench, -, held, executed, left, -⟩ := execution_of_step running stepped
  have inLine := inLine?_of_held running held
  have fetched : session.state.advance.Recalls stores := recalls.congr rfl rfl
  rw [left]
  by_cases stores? : ∃ target, (Instruction.decode word).access? session.state =
      some (.store, target)
  · obtain ⟨target, accesses⟩ := stores?
    have isStore : session.store? = some (target,
        session.state.register ((Instruction.decode word).register 0)) := by
      simp only [store?, inLine, Option.bind_eq_bind, Option.bind_some, accesses]
    obtain ⟨isData, written⟩ :=
      Instruction.store_of_execute ((State.access?_advance _ _).trans accesses) executed
    rw [isStore, written]
    exact (fetched.setData isData _).congr rfl rfl
  · have notStore : ∀ target, (Instruction.decode word).access? session.state ≠
        some (.store, target) :=
      fun target accesses => stores? ⟨target, accesses⟩
    have noStore : session.store? = none := by
      -- By `notStore` the match goes on to its second branch.
      simp only [store?, inLine, Option.bind_eq_bind, Option.bind_some]
    have changes := Instruction.changes_of_execute executed
    obtain ⟨sameMemory, sameSize⟩ := changes.memory_eq notStore
    rw [noStore]
    exact fetched.congr sameMemory sameSize

theorem Recorded.recalls (recorded : Recorded image options stores session) :
    session.state.Recalls stores := by
  induction recorded with
  | start console => exact State.recalls_ofImage image
  | host recorded console inductionHypothesis => exact inductionHypothesis
  | step recorded stepped inductionHypothesis => exact recalls_of_step inductionHypothesis stepped

/-! ## Loads and refused accesses -/

private theorem load_of_step {target : Int} (recalls : session.state.Recalls stores)
    (stepped : step session = .ok outcome after)
    (inLine : session.inLine? = some instruction)
    (accesses : instruction.access? session.state = some (.load, target)) :
    session.state.isDataAddress target = true ∧
      (instruction.register 0 ≠ 0 →
        after.state.register (instruction.register 0) = (stores.lookup target).getD 0) := by
  have running := running_of_inLine? inLine
  obtain ⟨word, console, bench, -, held, executed, left, -⟩ := execution_of_step running stepped
  obtain rfl : Instruction.decode word = instruction :=
    Option.some.inj ((inLine?_of_held running held).symm.trans inLine)
  have fetched : session.state.advance.Recalls stores := recalls.congr rfl rfl
  obtain ⟨isData, loaded⟩ :=
    Instruction.load_of_execute ((State.access?_advance _ _).trans accesses) executed
  refine ⟨(State.isDataAddress_advance _ _).symm.trans isData, ?_⟩
  intro visible
  rw [left, State.register_clearRegisterZero, loaded,
    State.register_setRegister_same _ (Instruction.register_lt _ _) visible]
  exact fetched.dataAt isData

/-- A step that refuses an access names the effective address of its instruction. -/
theorem access_of_step {pc : Nat} {access : Access} {target : Int}
    (failed : step session = .error fault after)
    (refused : fault.cause = .invalidMemoryTarget pc access target) :
    pc = session.state.pc ∧ session.state.isDataAddress target = false ∧
      ∃ instruction, session.inLine? = some instruction ∧
        instruction.access? session.state = some (access, target) := by
  rcases refuses_or_fails_of_step failed (by rw [refused]; exact id) with
    ⟨asked, -, refuses⟩ | ⟨word, -, held, fails⟩
  · rw [refused] at refuses
    cases refuses
  · rw [refused] at fails
    obtain ⟨address, accesses, outside⟩ := fails.access_of_invalidMemoryTarget
    exact ⟨address, outside, _, inLine?_of_held (running_of_error failed) held, accesses⟩

/-- In every run, a load that retires has its effective address among the data cells and
delivers what the most recent store there has written, or zero if there was none. An
access that is refused has its effective address outside the data cells, and the message
shows it. -/
theorem loads_deliver_latest_store (recorded : Recorded image options stores session) :
    (∀ outcome after instruction target, step session = .ok outcome after →
      session.inLine? = some instruction →
      instruction.access? session.state = some (.load, target) →
      ((session.state.codeSize : Int) ≤ target ∧ target < memorySize) ∧
        (instruction.register 0 ≠ 0 →
          after.state.register (instruction.register 0) = (stores.lookup target).getD 0)) ∧
    ∀ fault after, step session = .error fault after →
      fault.report.code = .invalidMemoryTarget →
      ∃ instruction access target, session.inLine? = some instruction ∧
        instruction.access? session.state = some (access, target) ∧
        fault.report.message =
          "Invalid " ++ access.text ++ s!" target at pc {session.state.pc}: {target}" ∧
        ¬((session.state.codeSize : Int) ≤ target ∧ target < memorySize) := by
  refine ⟨?_, ?_⟩
  · intro outcome after instruction target stepped inLine accesses
    obtain ⟨isData, delivers⟩ := load_of_step recorded.recalls stepped inLine accesses
    exact ⟨State.isDataAddress_iff_bounds.mp isData, delivers⟩
  · intro fault after failed refused
    obtain ⟨pc, access, target, cause⟩ := FaultCause.exists_of_invalidMemoryTarget refused
    obtain ⟨rfl, outside, instruction, inLine, accesses⟩ := access_of_step failed cause
    have shown := Fault.message_of_invalidMemoryTarget cause
    have notData : ¬((session.state.codeSize : Int) ≤ target ∧ target < memorySize) := by
      rw [← State.isDataAddress_iff_bounds, outside]
      decide
    exact ⟨instruction, access, target, inLine, accesses, shown, notData⟩

/-- A program that stores -100 and then -99 in cell 200, loads the cell, and then loads
from the address -99. -/
def overwriting : Image :=
  .ofWords [0x119C, 0x31C8, 0x5101, 0x31C8, 0x22C8, 0x4310]

/-- A run of the overwriting program, after a number of steps. -/
def overwritingSession : (steps : Nat) → Session
  | 0 => start overwriting ⟨.disabled, true⟩ (.start [] .calm)
  | steps + 1 => left (step (overwritingSession steps))

/-- The second of the two stores is the one that is loaded, and a negative address is
refused with its own value. -/
theorem overwriting_loads_latest :
    (overwritingSession 5).state.number 2 = -99 ∧
      ∃ fault, Effects.outcome (step (overwritingSession 5)) = .error fault ∧
        fault.report.message = "Invalid load target at pc 5: -99" ∧
        ¬((overwritingSession 5).state.codeSize ≤ (-99 : Int) ∧ (-99 : Int) < memorySize) := by
  have run : (∀ steps < 5, Effects.outcome (step (overwritingSession steps)) = .ok .retired) ∧
      (overwritingSession 4).inLine? = some (Instruction.decode 0x22C8) ∧
      (Instruction.decode 0x22C8).access? (overwritingSession 4).state = some (.load, 200) ∧
      (overwritingSession 5).state.pc = 5 ∧
      (overwritingSession 5).inLine? = some (Instruction.decode 0x4310) ∧
      (Instruction.decode 0x4310).access? (overwritingSession 5).state = some (.load, -99) ∧
      Effects.outcome (step (overwritingSession 5)) =
        .error ⟨.invalidMemoryTarget 5 .load (-99), some (.ofWord 5 0x4310)⟩ := by
    decide +kernel
  obtain ⟨retires, fifth, fifthAccess, place, sixth, sixthAccess, faults⟩ := run
  have before : Recorded overwriting ⟨.disabled, true⟩ _ (overwritingSession 4) :=
    .step (.step (.step (.step (.start _) (eq_ok_of_outcome (retires 0 (by decide))))
      (eq_ok_of_outcome (retires 1 (by decide)))) (eq_ok_of_outcome (retires 2 (by decide))))
      (eq_ok_of_outcome (retires 3 (by decide)))
  have loads := eq_ok_of_outcome (retires 4 (by decide))
  have loaded : Recorded overwriting ⟨.disabled, true⟩ _ (overwritingSession 5) :=
    before.step loads
  obtain ⟨-, delivers⟩ :=
    (loads_deliver_latest_store before).1 _ _ _ _ loads fifth fifthAccess
  obtain ⟨instruction, access, target, inLine, accesses, shown, outside⟩ :=
    (loads_deliver_latest_store loaded).2 _ _ (eq_error_of_outcome faults) rfl
  obtain rfl := Option.some.inj (sixth.symm.trans inLine)
  cases sixthAccess.symm.trans accesses
  have delivered : (overwritingSession 5).state.register 2 = 0xFF9D :=
    (delivers (by decide)).trans (by decide +kernel)
  rw [place] at shown
  refine ⟨?_, _, faults, shown.trans (by decide), outside⟩
  rw [State.number, delivered]
  decide

end Session

end MiniatureMachine
