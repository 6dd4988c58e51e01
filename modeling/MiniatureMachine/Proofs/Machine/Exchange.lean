import MiniatureMachine.Machine.Execution
import MiniatureMachine.Proofs.Effects
import MiniatureMachine.Proofs.Machine.Execution

/-!
Contract: what a computation takes from a calm console and what it writes there.

Owns:
- calm consoles, and the exchange between two of them;
- computations that keep a console calm;
- computations that can be replayed on another console, and that every dialogue and
  every instruction can be;
- the exchange that lies between two consoles, as a value.

A computation that succeeds takes entries from the front of the script and does not
know what follows them. One that fails may have seen the end of the script, so it
can be replayed only where the script ends in the same way.
-/

namespace MiniatureMachine

open Effects

/-- What passes between a program and its operator: the entries taken and the text
written. -/
structure Exchange where
  entries : List Entry
  text : String
deriving DecidableEq, Repr

namespace Exchange

def nothing : Exchange := ⟨[], ""⟩

def andThen (first second : Exchange) : Exchange :=
  ⟨first.entries ++ second.entries, first.text ++ second.text⟩

end Exchange

namespace Console

/-- A console on which every call goes as usual. Its script may hold interrupts. -/
structure Calm (console : Console) : Prop where
  schedule : console.schedule = .calm
  uninterrupted : console.interrupted = false

/-- A calm console is what an exchange makes of another. -/
structure Undergoes (before : Console) (exchange : Exchange) (after : Console) : Prop where
  script : before.script = exchange.entries ++ after.script
  output : after.output = before.output ++ exchange.text
  calm : after.Calm

theorem Calm.undergoes_nothing {console : Console} (calm : console.Calm) :
    console.Undergoes .nothing console :=
  ⟨rfl, String.append_empty.symm, calm⟩

theorem Undergoes.trans {before middle after : Console} {first second : Exchange}
    (one : before.Undergoes first middle) (two : middle.Undergoes second after) :
    before.Undergoes (first.andThen second) after where
  script := by
    rw [one.script, two.script]
    exact (List.append_assoc ..).symm
  output := by
    rw [two.output, one.output]
    exact String.append_assoc
  calm := two.calm

def since (before after : Console) : Exchange :=
  { entries := before.script.take (before.script.length - after.script.length)
    text := String.ofList (after.output.toList.drop before.output.toList.length) }

theorem Undergoes.since_eq {before after : Console} {exchange : Exchange}
    (undergoes : before.Undergoes exchange after) : since before after = exchange := by
  have entries : before.script.length - after.script.length = exchange.entries.length := by
    rw [undergoes.script, List.length_append]
    omega
  unfold since
  rw [entries, undergoes.output, undergoes.script, String.toList_append, List.take_left,
    List.drop_left, String.ofList_toList]

end Console

/-! ## Replaying on another console -/

namespace Effects

variable {ε σ ρ α β : Type} (console : σ → Console) (others : σ → ρ)

/-- On a calm console, a computation takes entries from the script and writes a text,
and the console stays calm. -/
def Exchanges (effect : EStateM ε σ α) (before : σ) : Prop :=
  (console before).Calm →
    ∃ exchange, (console before).Undergoes exchange (console (left (effect before)))

/-- On another calm console, with the same entries in front and all else the same, a
computation has the same exchange and the same outcome. If it does not succeed, the
entries behind those have to be the same, too. -/
def Replays (effect : EStateM ε σ α) (before : σ) : Prop :=
  (console before).Calm →
    ∃ exchange, (console before).Undergoes exchange (console (left (effect before))) ∧
      ∀ elsewhere rest, (console elsewhere).Calm → others elsewhere = others before →
        (console elsewhere).script = exchange.entries ++ rest →
        ((∃ value, outcome (effect before) = .ok value) ∨
          rest = (console (left (effect before))).script) →
        outcome (effect elsewhere) = outcome (effect before) ∧
          others (left (effect elsewhere)) = others (left (effect before)) ∧
          (console elsewhere).Undergoes exchange (console (left (effect elsewhere)))

variable {console others}

theorem Exchanges.of_ok {effect : EStateM ε σ α} {before after : σ} {value : α}
    (exchanges : Exchanges console effect before) (succeeded : effect before = .ok value after)
    (calm : (console before).Calm) :
    ∃ exchange, (console before).Undergoes exchange (console after) := by
  have undergoes := exchanges calm
  rw [succeeded] at undergoes
  exact undergoes

theorem Exchanges.of_error {effect : EStateM ε σ α} {before after : σ} {cause : ε}
    (exchanges : Exchanges console effect before) (failed : effect before = .error cause after)
    (calm : (console before).Calm) :
    ∃ exchange, (console before).Undergoes exchange (console after) := by
  have undergoes := exchanges calm
  rw [failed] at undergoes
  exact undergoes

theorem Replays.exchanges {effect : EStateM ε σ α} {before : σ}
    (replays : Replays console others effect before) : Exchanges console effect before := by
  intro calm
  obtain ⟨exchange, undergoes, -⟩ := replays calm
  exact ⟨exchange, undergoes⟩

/-- A computation that leaves the console alone and does not look at it. -/
theorem Replays.of_untouched {effect : EStateM ε σ α} {before : σ}
    (untouched : ∀ state, console (left (effect state)) = console state)
    (unseen : ∀ state, others state = others before →
      outcome (effect state) = outcome (effect before) ∧
        others (left (effect state)) = others (left (effect before))) :
    Replays console others effect before := by
  intro calm
  refine ⟨.nothing, ?_, fun elsewhere rest calm' same _ _ => ?_⟩
  · rw [untouched]
    exact calm.undergoes_nothing
  · obtain ⟨sameOutcome, sameOthers⟩ := unseen elsewhere same
    refine ⟨sameOutcome, sameOthers, ?_⟩
    rw [untouched]
    exact calm'.undergoes_nothing

theorem Replays.pure (value : α) (before : σ) :
    Replays console others (Pure.pure value : EStateM ε σ α) before :=
  .of_untouched (fun _ => rfl) fun _ same => ⟨rfl, same⟩

theorem Replays.throw (cause : ε) (before : σ) :
    Replays console others (MonadExcept.throw cause : EStateM ε σ α) before :=
  .of_untouched (fun _ => rfl) fun _ same => ⟨rfl, same⟩

/-- Only what a computation does where all but the console is the same counts. -/
theorem Replays.congr {effect effect' : EStateM ε σ α} {before : σ}
    (agree : ∀ state, others state = others before → effect state = effect' state)
    (replays : Replays console others effect' before) :
    Replays console others effect before := by
  intro calm
  obtain ⟨exchange, undergoes, again⟩ := replays calm
  rw [agree before rfl]
  refine ⟨exchange, undergoes, fun elsewhere rest calm' same script goesOn => ?_⟩
  rw [agree elsewhere same]
  exact again elsewhere rest calm' same script goesOn

/-- Of the state, only what is no console is looked at. -/
theorem Replays.get {next : σ → EStateM ε σ α} {before : σ}
    (unseen : ∀ state, others state = others before → next state = next before)
    (replays : Replays console others (next before) before) :
    Replays console others (MonadState.get >>= next) before := by
  refine .congr (fun state same => ?_) replays
  rw [get_bind, unseen state same]

theorem Replays.modify {change : σ → σ} {before : σ}
    (untouched : ∀ state, console (change state) = console state)
    (unseen : ∀ state, others state = others before →
      others (change state) = others (change before)) :
    Replays console others (modify change : EStateM ε σ PUnit) before :=
  .of_untouched untouched fun state same => ⟨rfl, unseen state same⟩

theorem Replays.ite {condition : Prop} [Decidable condition] {first second : EStateM ε σ α}
    {before : σ} (whenTrue : condition → Replays console others first before)
    (whenFalse : ¬condition → Replays console others second before) :
    Replays console others (if condition then first else second) before := by
  by_cases holds : condition
  · rw [if_pos holds]
    exact whenTrue holds
  · rw [if_neg holds]
    exact whenFalse holds

/-- Where the scripts are the same, so is what comes of the computation. -/
theorem Replays.of_script {effect : EStateM ε σ α} {before elsewhere : σ}
    (replays : Replays console others effect before) (calm : (console before).Calm)
    (calm' : (console elsewhere).Calm) (same : others elsewhere = others before)
    (script : (console elsewhere).script = (console before).script) :
    ∃ exchange, outcome (effect elsewhere) = outcome (effect before) ∧
      others (left (effect elsewhere)) = others (left (effect before)) ∧
      (console before).Undergoes exchange (console (left (effect before))) ∧
      (console elsewhere).Undergoes exchange (console (left (effect elsewhere))) := by
  obtain ⟨exchange, undergoes, again⟩ := replays calm
  obtain ⟨sameOutcome, sameOthers, undergoes'⟩ :=
    again elsewhere _ calm' same (script.trans undergoes.script) (.inr rfl)
  exact ⟨exchange, sameOutcome, sameOthers, undergoes, undergoes'⟩

theorem Replays.bind {first : EStateM ε σ α} {next : α → EStateM ε σ β} {before : σ}
    (firstReplays : Replays console others first before)
    (nextReplays : ∀ x middle, first before = .ok x middle →
      Replays console others (next x) middle) :
    Replays console others (first >>= next) before := by
  intro calm
  obtain ⟨exchange, undergoes, again⟩ := firstReplays calm
  cases ran : first before with
  | error cause middle =>
      have whole : (first >>= next) before = .error cause middle :=
        bind_eq_error_iff.mpr (.inl ran)
      rw [ran] at undergoes again
      rw [whole]
      refine ⟨exchange, undergoes, fun elsewhere rest calm' same script goesOn => ?_⟩
      have ends : rest = (console middle).script := by
        rcases goesOn with ⟨value, ⟨⟩⟩ | ends
        exact ends
      obtain ⟨sameOutcome, sameOthers, undergoes'⟩ :=
        again elsewhere rest calm' same script (.inr ends)
      have ran' := eq_error_of_outcome sameOutcome
      rw [bind_eq_error_iff.mpr (.inl ran')]
      exact ⟨rfl, sameOthers, undergoes'⟩
  | ok x middle =>
      have whole : (first >>= next) before = next x middle := bind_of_ok ran
      rw [ran] at undergoes again
      obtain ⟨exchange', undergoesNext, againNext⟩ := nextReplays x middle ran undergoes.calm
      rw [whole]
      refine ⟨exchange.andThen exchange', undergoes.trans undergoesNext,
        fun elsewhere rest calm' same script goesOn => ?_⟩
      obtain ⟨sameOutcome, sameOthers, undergoes'⟩ :=
        again elsewhere (exchange'.entries ++ rest) calm' same
          (script.trans (List.append_assoc ..)) (.inl ⟨x, rfl⟩)
      have ran' := eq_ok_of_outcome sameOutcome
      have script' := List.append_cancel_left
        (undergoes'.script.symm.trans (script.trans (List.append_assoc ..)))
      obtain ⟨sameOutcome', sameOthers', undergoesNext'⟩ :=
        againNext (left (first elsewhere)) rest undergoes'.calm sameOthers script' goesOn
      rw [bind_of_ok ran']
      exact ⟨sameOutcome', sameOthers', undergoes'.trans undergoesNext'⟩

/-- A computation on a part of the state, which has the console. -/
theorem Replays.lift {δ τ ω : Type} {part : StatePart σ τ} {wrap : δ → ε}
    {partConsole : τ → Console} {partOthers : τ → ω} {effect : EStateM δ τ α} {before : σ}
    (replays : Replays partConsole partOthers effect (part.get before))
    (shows : ∀ state, console state = partConsole (part.get state))
    (sees : ∀ one other, others one = others other →
      partOthers (part.get one) = partOthers (part.get other))
    (puts : ∀ one other after after', others one = others other →
      partOthers after = partOthers after' →
      others (part.put after one) = others (part.put after' other)) :
    Replays console others (part.lift wrap effect) before := by
  have lifted : ∀ state,
      outcome (part.lift wrap effect state) =
          (outcome (effect (part.get state))).mapError wrap ∧
        left (part.lift wrap effect state) = part.put (left (effect (part.get state))) state := by
    intro state
    unfold StatePart.lift
    cases effect (part.get state) <;> exact ⟨rfl, rfl⟩
  obtain ⟨said, done⟩ := lifted before
  intro calm
  rw [shows] at calm ⊢
  obtain ⟨exchange, undergoes, again⟩ := replays calm
  rw [said, done, shows, part.get_put]
  refine ⟨exchange, undergoes, fun elsewhere rest calm' same script goesOn => ?_⟩
  obtain ⟨said', done'⟩ := lifted elsewhere
  rw [shows] at calm' script ⊢
  rw [said', done', shows, part.get_put]
  have goesOn' : (∃ value, outcome (effect (part.get before)) = .ok value) ∨
      rest = (partConsole (left (effect (part.get before)))).script := by
    refine goesOn.imp_left ?_
    rintro ⟨value, succeeded⟩
    cases succeeds : outcome (effect (part.get before)) with
    | ok value => exact ⟨value, rfl⟩
    | error cause =>
        rw [succeeds] at succeeded
        cases succeeded
  obtain ⟨sameOutcome, sameOthers, undergoes'⟩ :=
    again (part.get elsewhere) rest calm' (sees _ _ same) script goesOn'
  exact ⟨congrArg _ sameOutcome, puts _ _ _ _ same sameOthers, undergoes'⟩

end Effects

/-! ## Dialogues -/

/-- A dialogue works on nothing but the console. -/
abbrev Dialogue.Replays {α : Type} (dialogue : Dialogue α) (before : Console) : Prop :=
  Effects.Replays id (fun _ => ()) dialogue before

namespace Console

theorem write_of_calm {console : Console} (calm : console.Calm) (text : String) :
    write text console =
      .ok () { console with writes := console.writes + 1, output := console.output ++ text } := by
  unfold write
  rw [calm.schedule]
  rfl

private theorem Calm.beginRead_interrupted {console : Console} (calm : console.Calm) :
    console.beginRead.interrupted = false := by
  unfold beginRead
  rw [calm.schedule, calm.uninterrupted]
  rfl

/-- What a read returns on a calm console. -/
theorem readLine_of_calm {console : Console} (calm : console.Calm) :
    readLine console =
      match console.script with
      | [] => .ok .endOfInput console.beginRead
      | .line text :: rest => .ok (.line text) { console.beginRead with script := rest }
      | .interrupt :: rest => .ok .interrupted { console.beginRead with script := rest } := by
  unfold readLine
  rw [calm.schedule]
  rfl

theorem Calm.undergoes_write {console : Console} (calm : console.Calm) (text : String) :
    console.Undergoes ⟨[], text⟩ (left (write text console)) := by
  rw [write_of_calm calm]
  exact ⟨rfl, rfl, ⟨calm.schedule, calm.uninterrupted⟩⟩

theorem writeLine_of_calm {console : Console} (calm : console.Calm) (text : String) :
    ∃ after, writeLine text console = .ok () after ∧
      console.Undergoes ⟨[], text ++ "\n"⟩ after := by
  have one := calm.undergoes_write text
  rw [write_of_calm calm] at one
  have two := one.calm.undergoes_write "\n"
  rw [write_of_calm one.calm] at two
  refine ⟨_, ?_, one.trans two⟩
  unfold writeLine
  rw [bind_of_ok (write_of_calm calm text)]
  exact write_of_calm one.calm "\n"

theorem replays_write (text : String) (before : Console) :
    Dialogue.Replays (write text) before := by
  intro (calm : before.Calm)
  refine ⟨⟨[], text⟩, calm.undergoes_write text,
    fun elsewhere rest (calm' : elsewhere.Calm) _ _ _ => ⟨?_, rfl, calm'.undergoes_write text⟩⟩
  rw [write_of_calm calm, write_of_calm calm']
  rfl

theorem replays_writeLine (text : String) (before : Console) :
    Dialogue.Replays (writeLine text) before :=
  (replays_write text before).bind fun _ middle _ => replays_write "\n" middle

private theorem Calm.undergoes_beginRead {console : Console} (calm : console.Calm)
    {entries rest : List Entry} (script : console.script = entries ++ rest) :
    console.Undergoes ⟨entries, ""⟩ { console.beginRead with script := rest } :=
  ⟨script, String.append_empty.symm, ⟨calm.schedule, calm.beginRead_interrupted⟩⟩

/-- Reading can be replayed once a line is insisted on: the end of the input is then
a failure. -/
theorem replays_readLine_demand (before : Console) :
    Dialogue.Replays (readLine >>= demand) before := by
  intro (calm : before.Calm)
  cases script : before.script with
  | nil =>
      have ran : ∀ console : Console, console.Calm → console.script = [] →
          (readLine >>= demand) console = .error .endOfInput console.beginRead := by
        intro console calm script
        simp only [bind, EStateM.bind, readLine_of_calm calm, script]
        rfl
      have undergoes : ∀ console : Console, console.Calm → console.script = [] →
          console.Undergoes .nothing console.beginRead :=
        fun console calm script =>
          ⟨rfl, String.append_empty.symm, ⟨calm.schedule, calm.beginRead_interrupted⟩⟩
      rw [ran before calm script]
      refine ⟨.nothing, undergoes before calm script,
        fun elsewhere rest (calm' : elsewhere.Calm) _ script' goesOn => ?_⟩
      rcases goesOn with ⟨value, ⟨⟩⟩ | ends
      have script' : elsewhere.script = [] := script'.trans (ends.trans script)
      rw [ran elsewhere calm' script']
      exact ⟨rfl, rfl, undergoes elsewhere calm' script'⟩
  | cons entry later =>
      have ran : ∀ (console : Console) (rest : List Entry), console.Calm →
          console.script = entry :: rest →
          outcome ((readLine >>= demand) console) =
              (match entry with
                | .line text => .ok text
                | .interrupt => .error .interrupted) ∧
            left ((readLine >>= demand) console) = { console.beginRead with script := rest } := by
        intro console rest calm script
        simp only [bind, EStateM.bind, readLine_of_calm calm, script]
        cases entry <;> exact ⟨rfl, rfl⟩
      obtain ⟨outcome, left⟩ := ran before later calm script
      rw [outcome, left]
      refine ⟨⟨[entry], ""⟩, calm.undergoes_beginRead script,
        fun elsewhere rest (calm' : elsewhere.Calm) _ script' _ => ?_⟩
      obtain ⟨outcome', left'⟩ := ran elsewhere rest calm' script'
      rw [outcome', left']
      exact ⟨rfl, rfl, calm'.undergoes_beginRead script'⟩

theorem promptLine_eq (text : String) :
    promptLine text = write text >>= fun _ => readLine >>= demand :=
  bind_assoc ..

theorem replays_promptLine (text : String) (before : Console) :
    Dialogue.Replays (promptLine text) before := by
  rw [promptLine_eq]
  exact (replays_write text before).bind fun _ middle _ => replays_readLine_demand middle

/-- On a calm console only the operator keeps a prompt from obtaining a line. -/
theorem promptLine_error_of_calm {console after : Console} {text : String} {cause : FaultCause}
    (calm : console.Calm) (failed : promptLine text console = .error cause after) :
    cause.code.isOperatorInitiated = true := by
  rw [promptLine_eq, bind_of_ok (write_of_calm calm text)] at failed
  have undergoes := calm.undergoes_write text
  rw [write_of_calm calm, left_ok] at undergoes
  rcases bind_eq_error_iff.mp failed with unread | ⟨reply, middle, replied, refused⟩
  · rw [readLine_of_calm undergoes.calm] at unread
    split at unread <;> cases unread
  · cases reply <;> cases refused <;> rfl

end Console

namespace NumberInput

theorem retry_eq :
    retry = (do
      Console.writeLine retryNotice
      let line ← Console.promptLine retryPrompt
      if line = "q" then throw .aborted
      else
        match parse? line with
        | some word => pure word
        | none => retry : Dialogue Word) := by
  funext console
  rw [retry]
  simp only [bind, EStateM.bind]
  split
  · rename_i noticed
    rw [noticed]
  · rename_i middle noticed
    rw [noticed]
    dsimp only
    split
    · rename_i obtained
      rw [obtained]
    · rename_i line after obtained
      rw [obtained]
      dsimp only
      split
      · rfl
      · cases parse? line <;> rfl

/-- Every attempt takes an entry. -/
theorem length_script_of_attempt {before middle after : Console} {line : String}
    (noticed : Console.writeLine retryNotice before = .ok () middle)
    (obtained : Console.promptLine retryPrompt middle = .ok line after) :
    after.script.length < before.script.length := by
  rw [← Console.script_writeLine noticed, Console.script_promptLine obtained]
  exact Nat.lt_succ_self _

/-- The induction is on the length of the script. -/
theorem replays_retry (before : Console) : Dialogue.Replays retry before := by
  induction length : before.script.length using Nat.strongRecOn generalizing before with
  | ind length inductionHypothesis =>
      rw [retry_eq]
      refine (Console.replays_writeLine _ _).bind fun _ middle noticed => ?_
      refine (Console.replays_promptLine _ _).bind fun line after obtained => ?_
      have shorter := length_script_of_attempt noticed obtained
      split
      · exact .throw _ _
      · split
        · exact .pure _ _
        · exact inductionHypothesis _ (length ▸ shorter) after rfl

theorem read_eq :
    read = (Console.readLine >>= Console.demand) >>= fun line =>
      match parse? line with
      | some word => pure word
      | none => retry :=
  (bind_assoc ..).symm

private theorem replays_read (before : Console) : Dialogue.Replays read before := by
  rw [read_eq]
  refine (Console.replays_readLine_demand before).bind fun line middle _ => ?_
  split
  · exact .pure _ _
  · exact replays_retry middle

end NumberInput

/-! ## Instructions -/

namespace Bench

/-- An effect works on the console and on the state of the machine. -/
abbrev Replays {α : Type} (effect : Effect α) (before : Bench) : Prop :=
  Effects.Replays Bench.console Bench.state effect before

theorem replays_update (change : State → Except FaultCause State) (before : Bench) :
    Replays (update change) before := by
  refine .of_untouched (fun bench => ?_) fun bench same => ?_
  · unfold update
    cases change bench.state <;> rfl
  · unfold update
    rw [same]
    cases change before.state with
    | ok state => exact ⟨rfl, rfl⟩
    | error cause => exact ⟨rfl, same⟩

theorem replays_converse {α : Type} {dialogue : Dialogue α} {before : Bench}
    (replays : dialogue.Replays before.console) : Replays (converse dialogue) before := by
  rw [converse_eq_lift]
  refine Effects.Replays.lift replays (fun _ => rfl) (fun _ _ _ => rfl) ?_
  intro one other _ _ same _
  exact same

end Bench

namespace Instruction

/-- Only a read and a write look at the console. -/
theorem replays_execute (instruction : Instruction) (fetchedAt : Nat) (before : Bench) :
    Bench.Replays (instruction.execute fetchedAt) before := by
  unfold execute
  cases instruction.operation
  case nop => exact .pure () before
  case data => exact .throw _ before
  case read =>
    exact (Bench.replays_converse (NumberInput.replays_read _)).bind
      fun word middle _ => Bench.replays_update _ middle
  case write =>
    refine .congr (fun bench same => ?_)
      (Bench.replays_converse (Console.replays_writeLine
        (toString (before.state.number (instruction.register 0))) before.console))
    rw [← same]
    rfl
  case call =>
    exact (Bench.replays_update _ _).bind fun _ middle _ => Bench.replays_update _ middle
  all_goals exact Bench.replays_update _ before

end Instruction

end MiniatureMachine
