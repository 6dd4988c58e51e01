import MiniatureMachine.Proofs.Machine.Fetching
import MiniatureMachine.Proofs.Machine.Transparency

/-!
Contract: a program that only goes forward ends within its length.

Owns:
- where the machine continues after an instruction;
- images that do not jump through a register and name only later addresses;
- the length of their runs and the order of their fetches.

A step takes its entries from a finite script, so it ends with every console. Between
steps the counter only grows, and it never leaves the code by more than one: what is left
of the code bounds the steps that are left.
-/

namespace MiniatureMachine

open Effects

/-! ## Where the machine continues -/

namespace Instruction

variable {instruction : Instruction} {fetchedAt : Nat} {before after : Bench}

/-- Unless it jumps through a register, an instruction leaves the counter where it is or
moves it to the address that it names. -/
theorem pc_of_execute (direct : instruction.operation ≠ .jumpi)
    (executed : instruction.execute fetchedAt before = .ok () after) :
    after.state.pc = before.state.pc ∨ instruction.target? = some (after.state.pc : Int) := by
  have footprint := footprint_of_execute executed
  by_cases jumps : instruction.Jumps before.state
  · obtain ⟨leads, -⟩ := footprint.lands jumps
    exact .inr (destination?_of_direct direct ▸ leads)
  · exact .inl (footprint.stays jumps)

/-- Wherever an instruction at an address continues, it is behind the address. -/
def GoesForward (instruction : Instruction) (address : Nat) : Prop :=
  instruction.operation ≠ .jumpi ∧ ∀ target ∈ instruction.target?, (address : Int) < target

instance (instruction : Instruction) (address : Nat) :
    Decidable (instruction.GoesForward address) :=
  inferInstanceAs (Decidable (_ ∧ ∀ target ∈ instruction.target?, (address : Int) < target))

end Instruction

/-- None of the words of an image jumps through a register, and all addresses that they
name are behind their own. -/
def Image.GoesForward (image : Image) : Prop :=
  ∀ (address : Nat) (word : Word), image.words[address]? = some (some word) →
    (Instruction.decode word).GoesForward address

-- The words of an image are looked through, and not all words that there are.
instance : DecidablePred Image.GoesForward := fun image =>
  decidable_of_iff
    (∀ entry ∈ image.words.zipIdx,
      entry.1.all (fun word => (Instruction.decode word).GoesForward entry.2) = true) <| by
    simp only [Option.all_eq_true, decide_eq_true_eq]
    constructor
    · intro forward address word given
      exact forward (some word, address) (List.mem_zipIdx_iff_getElem?.mpr given) word rfl
    · rintro forward ⟨word?, address⟩ member word rfl
      exact forward address word (List.mem_zipIdx_iff_getElem?.mp member)

/-! ## Runs that only go forward -/

namespace Session

variable {image : Image} {session after : Session}

/-- A step that retires moves the counter forward. -/
theorem pc_lt_of_step {outcome : StepOutcome} (forward : image.GoesForward)
    (sound : session.state.SoundFor image) (running : session.state.halted = false)
    (stepped : step session = .ok outcome after) : session.state.pc < after.state.pc := by
  obtain ⟨word, console, bench, inCode, held, executed, left, -⟩ :=
    execution_of_step running stepped
  obtain ⟨direct, ahead⟩ := forward _ word (sound.words_of_cell inCode held)
  rw [left]
  show session.state.pc < bench.state.pc
  rcases Instruction.pc_of_execute direct executed with falls | jumps
  · rw [falls]
    exact Nat.lt_succ_self _
  · exact Int.ofNat_lt.mp (ahead _ jumps)

private theorem codeSize_of_step {outcome : StepOutcome} (sound : session.state.SoundFor image)
    (stepped : step session = .ok outcome after) :
    after.state.codeSize = session.state.codeSize := by
  rw [(soundFor_of_step sound stepped).codeSize_eq, sound.codeSize_eq]

/-- The induction is on the fuel. A step that retires shortens the code ahead, and counts
no more than that. -/
theorem run_of_forward {fuel : Nat} (forward : image.GoesForward)
    (sound : session.state.SoundFor image)
    (enough : session.state.codeSize - session.state.pc < fuel) :
    ∃ finished, run fuel session = some finished ∧
      finished.session.steps + session.state.pc ≤ session.steps + session.state.codeSize := by
  induction fuel generalizing session with
  | zero => omega
  | succ fuel inductionHypothesis =>
      have inCode := sound.pc_le
      unfold run
      cases stepped : step session with
      | error fault after =>
          refine ⟨_, rfl, ?_⟩
          have reported := (machine_eq_iff.mp (machine_report fault after)).2
          have counted := steps_of_step_error stepped
          dsimp only
          omega
      | ok outcome after =>
          cases halted : session.state.halted with
          | true =>
              rw [step_of_halted halted] at stepped
              cases stepped
              exact ⟨_, rfl, by dsimp only; omega⟩
          | false =>
              have later := pc_lt_of_step forward sound halted stepped
              have sameSize := codeSize_of_step sound stepped
              have soundAfter := soundFor_of_step sound stepped
              have inCodeAfter := soundAfter.pc_le
              obtain ⟨_, _, _, -, -, -, -, counted⟩ := execution_of_step halted stepped
              cases outcome with
              | halted => exact ⟨_, rfl, by dsimp only; omega⟩
              | retired =>
                  obtain ⟨finished, ended, bound⟩ := inductionHypothesis soundAfter (by omega)
                  exact ⟨finished, ended, by omega⟩

/-- A step fetches at most at the counter. -/
theorem fetched?_eq_pc {address : Nat} (fetches : session.fetched? = some address) :
    address = session.state.pc := by
  unfold fetched? at fetches
  split at fetches
  · cases fetches
  cases answered : askAboutDebugging session with
  | error fault asked =>
      rw [answered] at fetches
      cases fetches
  | ok _ asked =>
      rw [answered] at fetches
      dsimp only at fetches
      have sameState := (machine_eq_iff.mp (keeps_askAboutDebugging.of_ok answered)).1
      cases fetching : fetch asked with
      | ok entry fetched =>
          rw [fetching] at fetches
          obtain ⟨-, -, -, located, -⟩ := fetch_eq_ok fetching
          cases fetches
          rw [located, sameState]
      | error fault fetched =>
          obtain ⟨-, cause, rfl, refuses⟩ := fetch_eq_error fetching
          rw [fetching] at fetches
          cases refuses with
          | interrupted raised => cases fetches
          | outOfBounds outside => cases fetches
          | malformed inCode unreadable =>
              cases fetches
              rw [sameState]

private def laterFetches (count : Nat) (session : Session) : List Nat :=
  match step session with
  | .ok .retired after => fetchedAddresses count after
  | .ok .halted _ | .error _ _ => []

/-- The fetched addresses grow. By induction on the number of steps: a step fetches where
it begins, and all later steps begin behind it. -/
theorem pairwise_fetchedAddresses (forward : image.GoesForward)
    (sound : session.state.SoundFor image) (count : Nat) :
    (fetchedAddresses count session).Pairwise (· < ·) ∧
      ∀ address ∈ fetchedAddresses count session, session.state.pc ≤ address := by
  induction count generalizing session with
  | zero => exact ⟨.nil, nofun⟩
  | succ count inductionHypothesis =>
      have later : (laterFetches count session).Pairwise (· < ·) ∧
          ∀ address ∈ laterFetches count session, session.state.pc < address := by
        unfold laterFetches
        split
        · rename_i after stepped
          have running := running_of_retired stepped
          obtain ⟨grow, behind⟩ := inductionHypothesis (soundFor_of_step sound stepped)
          have ahead := pc_lt_of_step forward sound running stepped
          exact ⟨grow, fun address member => Nat.lt_of_lt_of_le ahead (behind address member)⟩
        all_goals exact ⟨.nil, nofun⟩
      obtain ⟨grow, behind⟩ := later
      show (session.fetched?.toList ++ laterFetches count session).Pairwise (· < ·) ∧
        ∀ address ∈ session.fetched?.toList ++ laterFetches count session,
          session.state.pc ≤ address
      cases fetches : session.fetched? with
      | none => exact ⟨grow, fun address member => Nat.le_of_lt (behind address member)⟩
      | some address =>
          rw [fetched?_eq_pc fetches]
          exact ⟨.cons behind grow, List.forall_mem_cons.mpr
            ⟨Nat.le_refl _, fun address member => Nat.le_of_lt (behind address member)⟩⟩

/-- A program that only goes forward ends, with every console and under every debugger, and
it does not retire more instructions than its code has words, nor fetch any of them twice. -/
theorem forward_run_ends {image : Image} (forward : image.GoesForward)
    (options : SessionOptions) (console : Console) :
    ∃ finished,
      (∀ fuel, (State.ofImage image).codeSize < fuel →
        run fuel (start image options console) = some finished) ∧
      finished.session.steps ≤ (State.ofImage image).codeSize ∧
      ∀ count, (fetchedAddresses count (start image options console)).Nodup := by
  have sound := State.soundFor_ofImage image
  obtain ⟨finished, ended, bound⟩ := @run_of_forward image (start image options console)
    ((State.ofImage image).codeSize + 1) forward sound (Nat.lt_succ_self _)
  refine ⟨finished, fun fuel enough => ?_, ?_, fun count => ?_⟩
  · obtain ⟨more, rfl⟩ := Nat.exists_eq_add_of_le enough
    exact run_add ended more
  · simpa [start, State.ofImage] using bound
  · exact (pairwise_fetchedAddresses forward sound count).1.imp Nat.ne_of_lt

/-- A program that reads a number and, unless it is zero, calls over a halt to the last
line, which writes the number and runs out of the code. -/
def overHalt : Image :=
  ⟨[some 0x0101, some 0xC103, some 0xB204, some 0x0000, some 0x0102]⟩

/-- Under the debugger, with a line that is no number among its entries. -/
theorem overHalt_ends :
    fetchedAddresses 6 (start overHalt ⟨.enabled, true⟩
        (.start [.line "p", .line "", .line "x", .line "7", .line "r"] .calm)) =
        [0, 1, 2, 4] ∧
      ∃ finished, run 6 (start overHalt ⟨.enabled, true⟩
          (.start [.line "p", .line "", .line "x", .line "7", .line "r"] .calm)) =
            some finished ∧
        finished.session.steps ≤ 5 := by
  obtain ⟨finished, ended, bound, -⟩ := forward_run_ends (by decide +kernel : overHalt.GoesForward)
    ⟨.enabled, true⟩ (.start [.line "p", .line "", .line "x", .line "7", .line "r"] .calm)
  exact ⟨by decide +kernel, finished, ended 6 (by decide), bound⟩

end Session

end MiniatureMachine
