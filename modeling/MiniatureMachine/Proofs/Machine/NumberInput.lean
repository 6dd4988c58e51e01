import MiniatureMachine.Proofs.Machine.Execution
import MiniatureMachine.Proofs.Machine.Exchange
import MiniatureMachine.Proofs.Numeral

/-!
Contract: the conversation in which a number is read.

Owns:
- consoles whose calls do not fail, and what the calls do there;
- the entries that end the conversation, and how;
- what a conversation takes and writes until an entry ends it, or until the input ends;
- the execution of a read, and of a write that it reads back.

Every entry that does not end the conversation is answered with a notice and a prompt, so the
induction is on these entries. The first entry differs from the others: it is taken without a
prompt, and there a `q` is only another line that is no number.
-/

namespace MiniatureMachine

open Effects

/-! ## Consoles that do not fail -/

namespace Console

/-- No call on the console fails. The operator may interrupt. -/
structure Reliable (console : Console) : Prop where
  reads : console.schedule.failingReads = []
  writes : console.schedule.failingWrites = []

/-- A reliable console with a given script, on which a given text has been written. -/
structure Shows (console : Console) (script : List Entry) (output : String) : Prop where
  reliable : console.Reliable
  script : console.script = script
  output : console.output = output

variable {console : Console} {script rest : List Entry} {output : String}

theorem Reliable.shows (reliable : console.Reliable) :
    console.Shows console.script console.output :=
  ⟨reliable, rfl, rfl⟩

theorem Shows.write (shows : console.Shows script output) (text : String) :
    ∃ after, Console.write text console = .ok () after ∧ after.Shows script (output ++ text) := by
  refine ⟨{ console with writes := console.writes + 1, output := console.output ++ text }, ?_,
    ⟨shows.reliable.reads, shows.reliable.writes⟩, shows.script, ?_⟩
  · rw [Console.write, shows.reliable.writes]
    rfl
  · exact congrArg (· ++ text) shows.output

theorem Shows.writeLine (shows : console.Shows script output) (text : String) :
    ∃ after, Console.writeLine text console = .ok () after ∧
      after.Shows script (output ++ (text ++ "\n")) := by
  obtain ⟨middle, written, shows⟩ := shows.write text
  obtain ⟨after, closed, shows⟩ := shows.write "\n"
  rw [String.append_assoc] at shows
  refine ⟨after, ?_, shows⟩
  rw [Console.writeLine, bind_of_ok written]
  exact closed

/-- What a read that insists on a line makes of the script. -/
theorem Shows.readLine_demand (shows : console.Shows script output) :
    ∃ after, after.Shows script.tail output ∧
      (readLine >>= demand) console =
        match script with
        | [] => .error .endOfInput after
        | .interrupt :: _ => .error .interrupted after
        | .line text :: _ => .ok text after := by
  obtain ⟨reliable, held, written⟩ := shows
  have kept : ∀ rest, ({ console.beginRead with script := rest } : Console).Shows rest output :=
    fun rest => ⟨⟨reliable.reads, reliable.writes⟩, rfl, written⟩
  simp only [bind, EStateM.bind, readLine, reliable.reads, List.lookup_nil, held]
  rcases script with _ | ⟨⟨text⟩ | _, rest⟩
  · exact ⟨console.beginRead, ⟨⟨reliable.reads, reliable.writes⟩, held, written⟩, rfl⟩
  · exact ⟨_, kept rest, rfl⟩
  · exact ⟨_, kept rest, rfl⟩

end Console

/-! ## Entries that end the conversation -/

namespace NumberInput

open Text (SignedNumeral)

/-- An entry at a position of the conversation, counted from zero, ends it with a number or
with a fault. -/
inductive Settles (position : Nat) : Entry → Except FaultCause Int → Prop
  | number {text : String} {value : Int} (shows : SignedNumeral text.toList value)
      (inRange : -32768 ≤ value ∧ value ≤ 32767) : Settles position (.line text) (.ok value)
  | interrupt : Settles position .interrupt (.error .interrupted)
  | quit (retried : 1 ≤ position) : Settles position (.line "q") (.error .aborted)

/-- None of the entries ends the conversation that begins with them. -/
def Undecided (entries : List Entry) : Prop :=
  ∀ position entry, entries[position]? = some entry → ∀ verdict, ¬Settles position entry verdict

/-- What is written after an entry that does not end the conversation. -/
def refusal : String :=
  retryNotice ++ "\n" ++ retryPrompt

/-- The result of the conversation that a verdict asks for. -/
inductive Concludes (after : Console) :
    Except FaultCause Int → EStateM.Result FaultCause Console Word → Prop
  | number (word : Word) : Concludes after (.ok word.toInt) (.ok word after)
  | fault (cause : FaultCause) : Concludes after (.error cause) (.error cause after)

theorem parse?_eq_some_iff {text : String} {word : Word} :
    parse? text = some word ↔ SignedNumeral text.toList word.toInt := by
  rw [parse?, Option.bind_eq_some_iff]
  constructor
  · rintro ⟨value, read, held⟩
    rw [Word.ofInt?_eq_some_iff.mp held]
    exact Text.signedDecimal?_eq_some_iff.mp read
  · intro shows
    exact ⟨_, Text.signedDecimal?_eq_some_iff.mpr shows, Word.ofInt?_eq_some_iff.mpr rfl⟩

theorem settles_of_parse {text : String} {word : Word} (read : parse? text = some word)
    (position : Nat) : Settles position (.line text) (.ok word.toInt) :=
  .number (parse?_eq_some_iff.mp read) (Word.inRange_toInt word)

/-- The number in a word, as it is written, is a number that a read accepts. -/
theorem settles_toString (word : Word) (position : Nat) :
    Settles position (.line (toString word.toInt)) (.ok word.toInt) :=
  settles_of_parse (parse?_eq_some_iff.mpr (Text.signedNumeral_toString word.toInt)) position

/-- From the second entry on the position does not matter. -/
theorem Settles.of_succ {position other : Nat} {entry : Entry} {verdict : Except FaultCause Int}
    (settles : Settles (position + 1) entry verdict) : Settles (other + 1) entry verdict := by
  cases settles with
  | number shows inRange => exact .number shows inRange
  | interrupt => exact .interrupt
  | quit => exact .quit (Nat.le_add_left 1 other)

/-! ## The conversation -/

variable {console : Console} {script front rest : List Entry} {output : String} {entry : Entry}
  {verdict : Except FaultCause Int}

/-- A retry writes its notice and its prompt and takes an entry. -/
theorem retry_of_shows (shows : console.Shows script output) :
    ∃ after, after.Shows script.tail (output ++ refusal) ∧
      retry console =
        match script with
        | [] => .error .endOfInput after
        | .interrupt :: _ => .error .interrupted after
        | .line text :: _ =>
            if text = "q" then .error .aborted after
            else
              match parse? text with
              | some word => .ok word after
              | none => retry after := by
  obtain ⟨noticed, notices, shows⟩ := shows.writeLine retryNotice
  obtain ⟨prompted, prompts, shows⟩ := shows.write retryPrompt
  obtain ⟨after, shows, read⟩ := shows.readLine_demand
  rw [String.append_assoc] at shows
  refine ⟨after, shows, (congrFun retry_eq console).trans ?_⟩
  rw [bind_of_ok notices, Console.promptLine_eq, bind_assoc, bind_of_ok prompts]
  rcases script with _ | ⟨⟨text⟩ | _, rest⟩
  · exact bind_eq_error_iff.mpr (.inl read)
  · rw [bind_of_ok read]
    dsimp only
    split
    · rfl
    · cases parse? text <;> rfl
  · exact bind_eq_error_iff.mpr (.inl read)

/-- The first entry is taken without a prompt. -/
theorem read_of_shows (shows : console.Shows script output) :
    ∃ after, after.Shows script.tail output ∧
      read console =
        match script with
        | [] => .error .endOfInput after
        | .interrupt :: _ => .error .interrupted after
        | .line text :: _ =>
            match parse? text with
            | some word => .ok word after
            | none => retry after := by
  obtain ⟨after, shows, taken⟩ := shows.readLine_demand
  refine ⟨after, shows, ?_⟩
  rw [read_eq]
  rcases script with _ | ⟨⟨text⟩ | _, rest⟩
  · exact bind_eq_error_iff.mpr (.inl taken)
  · rw [bind_of_ok taken]
    dsimp only
    cases parse? text <;> rfl
  · exact bind_eq_error_iff.mpr (.inl taken)

/-- An entry that does not end the conversation is a line that is no number. -/
theorem line_of_undecided {position : Nat}
    (undecided : ∀ verdict, ¬Settles position entry verdict) :
    ∃ text, entry = .line text ∧ parse? text = none ∧ (1 ≤ position → text ≠ "q") := by
  cases entry with
  | interrupt => exact absurd .interrupt (undecided _)
  | line text =>
      refine ⟨text, rfl, ?_, ?_⟩
      · cases read : parse? text with
        | none => rfl
        | some word => exact absurd (settles_of_parse read position) (undecided _)
      · rintro retried rfl
        exact absurd (.quit retried) (undecided _)

private theorem not_settles_of_parse {position : Nat} {text : String} (unread : parse? text = none)
    (notQuit : 1 ≤ position → text ≠ "q") (verdict : Except FaultCause Int) :
    ¬Settles position (.line text) verdict := by
  intro settles
  cases settles with
  | number shows inRange =>
      obtain ⟨word, rfl⟩ := Word.exists_of_inRange inRange
      cases unread.symm.trans (parse?_eq_some_iff.mpr shows)
  | quit retried => exact notQuit retried rfl

private theorem retry_of_undecided {position : Nat} (shows : console.Shows (entry :: rest) output)
    (undecided : ∀ verdict, ¬Settles (position + 1) entry verdict) :
    ∃ after, after.Shows rest (output ++ refusal) ∧ retry console = retry after := by
  obtain ⟨text, rfl, unread, notQuit⟩ := line_of_undecided undecided
  obtain ⟨after, shows, tried⟩ := retry_of_shows shows
  refine ⟨after, shows, tried.trans ?_⟩
  dsimp only
  rw [if_neg (notQuit (Nat.le_add_left 1 position)), unread]

private theorem retry_of_settles {position : Nat} (shows : console.Shows (entry :: rest) output)
    (settles : Settles (position + 1) entry verdict) :
    ∃ after, after.Shows rest (output ++ refusal) ∧ Concludes after verdict (retry console) := by
  obtain ⟨after, shows, tried⟩ := retry_of_shows shows
  refine ⟨after, shows, ?_⟩
  rw [tried]
  cases settles with
  | @number text value reads inRange =>
      obtain ⟨word, rfl⟩ := Word.exists_of_inRange inRange
      have notQuit : text ≠ "q" := by
        rintro rfl
        cases Text.signedDecimal?_eq_some_iff.mpr reads
      dsimp only
      rw [if_neg notQuit, parse?_eq_some_iff.mpr reads]
      exact .number word
  | interrupt => exact .fault .interrupted
  | quit => exact .fault .aborted

/-- Entries that do not end the conversation are taken and refused one after another. -/
theorem retry_of_front (shows : console.Shows (front ++ rest) output)
    (undecided : ∀ entry ∈ front, ∀ verdict, ¬Settles 1 entry verdict) :
    ∃ after, after.Shows rest (output ++ String.join (List.replicate front.length refusal)) ∧
      retry console = retry after := by
  induction front generalizing console output with
  | nil => exact ⟨console, by simpa using shows, rfl⟩
  | cons entry front inductionHypothesis =>
      obtain ⟨first, others⟩ := List.forall_mem_cons.mp undecided
      obtain ⟨middle, shows, goesOn⟩ := retry_of_undecided shows first
      obtain ⟨after, shows, tried⟩ := inductionHypothesis shows others
      refine ⟨after, ?_, goesOn.trans tried⟩
      rw [List.length_cons, List.replicate_succ, String.join_cons, ← String.append_assoc]
      exact shows

private theorem Undecided.cons_iff :
    Undecided (entry :: rest) ↔
      (∀ verdict, ¬Settles 0 entry verdict) ∧
        ∀ later ∈ rest, ∀ verdict, ¬Settles 1 later verdict := by
  constructor
  · intro undecided
    refine ⟨undecided 0 entry rfl, fun later listed verdict settles => ?_⟩
    obtain ⟨position, found⟩ := List.mem_iff_getElem?.mp listed
    exact undecided (position + 1) later found verdict settles.of_succ
  · rintro ⟨first, others⟩ (_ | position) later found verdict settles
    · cases found
      exact first verdict settles
    · exact others later (List.mem_of_getElem? found) verdict settles.of_succ

private theorem join_replicate_succ (count : Nat) (text : String) :
    String.join (List.replicate (count + 1) text) =
      String.join (List.replicate count text) ++ text := by
  rw [List.replicate_succ', String.join_append]
  simp

/-- A line that is no number, in the first place, is followed by retries. -/
theorem read_of_undecided_cons (shows : console.Shows (entry :: front ++ rest) output)
    (undecided : Undecided (entry :: front)) :
    ∃ after, after.Shows rest (output ++ String.join (List.replicate front.length refusal)) ∧
      read console = retry after := by
  obtain ⟨first, others⟩ := Undecided.cons_iff.mp undecided
  obtain ⟨text, rfl, unread, -⟩ := line_of_undecided first
  obtain ⟨middle, shows, reads⟩ := read_of_shows shows
  obtain ⟨after, shows, tried⟩ := retry_of_front shows others
  refine ⟨after, shows, reads.trans ?_⟩
  dsimp only [List.cons_append]
  rw [unread]
  exact tried

private theorem read_of_settles (shows : console.Shows (entry :: rest) output)
    (settles : Settles 0 entry verdict) :
    ∃ after, after.Shows rest output ∧ Concludes after verdict (read console) := by
  obtain ⟨after, shows, reads⟩ := read_of_shows shows
  refine ⟨after, shows, ?_⟩
  rw [reads]
  cases settles with
  | number shows inRange =>
      obtain ⟨word, rfl⟩ := Word.exists_of_inRange inRange
      dsimp only
      rw [parse?_eq_some_iff.mpr shows]
      exact .number word
  | interrupt => exact .fault .interrupted
  | quit retried => cases retried

/-- The conversation goes on to the first entry that ends it. -/
theorem read_of_front (shows : console.Shows (front ++ entry :: rest) output)
    (undecided : Undecided front) (settles : Settles front.length entry verdict) :
    ∃ after, after.Shows rest (output ++ String.join (List.replicate front.length refusal)) ∧
      Concludes after verdict (read console) := by
  cases front with
  | nil => simpa using read_of_settles shows settles
  | cons first front =>
      obtain ⟨middle, shows, reads⟩ := read_of_undecided_cons shows undecided
      obtain ⟨after, shows, concludes⟩ := retry_of_settles shows settles
      refine ⟨after, ?_, reads ▸ concludes⟩
      rw [List.length_cons, join_replicate_succ, ← String.append_assoc]
      exact shows

/-- A conversation that no entry ends goes on to the end of the input. -/
theorem read_of_undecided (shows : console.Shows script output) (undecided : Undecided script) :
    ∃ after, after.Shows [] (output ++ String.join (List.replicate script.length refusal)) ∧
      read console = .error .endOfInput after := by
  cases script with
  | nil =>
      obtain ⟨after, shows, reads⟩ := read_of_shows shows
      exact ⟨after, by simpa using shows, reads⟩
  | cons first others =>
      rw [← List.append_nil (first :: others)] at shows
      obtain ⟨middle, shows, reads⟩ := read_of_undecided_cons shows undecided
      obtain ⟨after, shows, tried⟩ := retry_of_shows shows
      refine ⟨after, ?_, reads.trans tried⟩
      rw [List.length_cons, join_replicate_succ, ← String.append_assoc]
      exact shows

/-- How a conversation over a script ends: how many entries are refused, which entries are
left, and the verdict. -/
inductive Ends : List Entry → Nat → List Entry → Except FaultCause Int → Prop
  | final {front rest : List Entry} {entry : Entry} {verdict : Except FaultCause Int}
      (undecided : Undecided front) (settles : Settles front.length entry verdict) :
      Ends (front ++ entry :: rest) front.length rest verdict
  | exhausted {script : List Entry} (undecided : Undecided script) :
      Ends script script.length [] (.error .endOfInput)

theorem Undecided.append_singleton (undecided : Undecided front)
    (goesOn : ∀ verdict, ¬Settles front.length entry verdict) : Undecided (front ++ [entry]) := by
  intro position other found
  rcases Nat.lt_trichotomy position front.length with inFront | rfl | behind
  · rw [List.getElem?_append_left inFront] at found
    exact undecided position other found
  · rw [List.getElem?_concat_length] at found
    cases found
    exact goesOn
  · rw [List.getElem?_eq_none (by rw [List.length_append, List.length_singleton]; omega)] at found
    cases found

private theorem exists_ends (script : List Entry) :
    ∃ count left verdict, Ends script count left verdict := by
  -- the entries that are known to end nothing are collected in front
  suffices ∀ front rest, Undecided front →
      ∃ count left verdict, Ends (front ++ rest) count left verdict from
    this [] script fun _ _ found => by cases found
  intro front rest undecided
  induction rest generalizing front with
  | nil =>
      rw [List.append_nil]
      exact ⟨_, _, _, .exhausted undecided⟩
  | cons entry rest inductionHypothesis =>
      by_cases settled : ∃ verdict, Settles front.length entry verdict
      · obtain ⟨verdict, settles⟩ := settled
        exact ⟨_, _, _, .final undecided settles⟩
      · rw [List.append_cons]
        exact inductionHypothesis _
          (undecided.append_singleton fun verdict settles => settled ⟨verdict, settles⟩)

private theorem read_of_ends {count : Nat} {left : List Entry} (shows : console.Shows script output)
    (ends : Ends script count left verdict) :
    ∃ after, after.Shows left (output ++ String.join (List.replicate count refusal)) ∧
      Concludes after verdict (read console) := by
  cases ends with
  | final undecided settles => exact read_of_front shows undecided settles
  | exhausted undecided =>
      obtain ⟨after, shows, reads⟩ := read_of_undecided shows undecided
      exact ⟨after, shows, reads ▸ .fault .endOfInput⟩

end NumberInput

/-! ## Instructions -/

namespace Instruction

open NumberInput

/-- The effect on the machine that a verdict asks for: the number goes to a register, and a
fault leaves the state as it was. -/
inductive Delivers (index : Nat) (state : State) (after : Console) :
    Except FaultCause Int → EStateM.Result FaultCause Bench Unit → Prop
  | number (word : Word) :
      Delivers index state after (.ok word.toInt) (.ok () ⟨state.setRegister index word, after⟩)
  | fault (cause : FaultCause) :
      Delivers index state after (.error cause) (.error cause ⟨state, after⟩)

variable {reader writer : Instruction} {console : Console}

private theorem delivers_of_concludes {index : Nat} {state : State} {after : Console}
    {verdict : Except FaultCause Int} (concludes : Concludes after verdict (read console)) :
    Delivers index state after verdict (readInto index ⟨state, console⟩) := by
  unfold readInto
  simp only [bind, EStateM.bind, Bench.converse]
  generalize read console = result at concludes
  cases concludes with
  | number word => exact .number word
  | fault cause => exact .fault cause

private theorem Delivers.eq_ok {index : Nat} {state : State} {after : Console} {word : Word}
    {result : EStateM.Result FaultCause Bench Unit}
    (delivers : Delivers index state after (.ok word.toInt) result) :
    result = .ok () ⟨state.setRegister index word, after⟩ := by
  generalize asked : Except.ok word.toInt = verdict at delivers
  cases delivers with
  | number other =>
      injection asked with same
      rw [BitVec.eq_of_toInt_eq same]
  | fault cause => cases asked

private theorem writeFrom_of_reliable {bench : Bench} (reliable : bench.console.Reliable)
    (index : Nat) :
    ∃ after : Console,
      after.Shows bench.console.script
        (bench.console.output ++ (toString (bench.state.number index) ++ "\n")) ∧
        writeFrom index bench = .ok () ⟨bench.state, after⟩ := by
  obtain ⟨after, written, shows⟩ := reliable.shows.writeLine (toString (bench.state.number index))
  refine ⟨after, shows, ?_⟩
  rw [writeFrom, get_bind, Bench.converse, written]

private theorem execute_of_read (isRead : reader.operation = .read) (fetchedAt : Nat) :
    reader.execute fetchedAt = readInto (reader.register 0) := by
  unfold execute
  rw [isRead]

private theorem execute_of_write (isWrite : writer.operation = .write) (fetchedAt : Nat) :
    writer.execute fetchedAt = writeFrom (writer.register 0) := by
  unfold execute
  rw [isWrite]

/-- The execution of a read ends. It takes the entries up to the first one that ends the
conversation, or all of them if there is none, and answers each of the others with a refusal.
The line that a write prints makes a read store the number that was written. -/
theorem read_ends_at_first_final (isRead : reader.operation = .read)
    (isWrite : writer.operation = .write) (reliable : console.Reliable) (fetchedAt : Nat)
    (state : State) :
    (∃ count left verdict, Ends console.script count left verdict) ∧
      (∀ count left verdict, Ends console.script count left verdict →
        ∃ after : Console,
          after.Shows left (console.output ++ String.join (List.replicate count refusal)) ∧
            Delivers (reader.register 0) state after verdict
              (reader.execute fetchedAt ⟨state, console⟩)) ∧
      ∀ (writtenAt : Nat) (writing : Bench), writing.console.Reliable →
        ∃ (text : String) (printed : Console),
          writer.execute writtenAt writing = .ok () ⟨writing.state, printed⟩ ∧
            printed.Shows writing.console.script (writing.console.output ++ (text ++ "\n")) ∧
            ∀ rest, console.script = .line text :: rest →
              ∃ after : Console, after.Shows rest console.output ∧
                reader.execute fetchedAt ⟨state, console⟩ =
                  .ok () ⟨state.setRegister (reader.register 0)
                    (writing.state.register (writer.register 0)), after⟩ := by
  rw [execute_of_read isRead]
  refine ⟨exists_ends _, fun count left verdict ends => ?_, fun writtenAt writing usable => ?_⟩
  · obtain ⟨after, shows, concludes⟩ := read_of_ends reliable.shows ends
    exact ⟨after, shows, delivers_of_concludes concludes⟩
  · obtain ⟨printed, prints, written⟩ := writeFrom_of_reliable usable (writer.register 0)
    rw [execute_of_write isWrite]
    refine ⟨_, printed, written, prints, fun rest enters => ?_⟩
    obtain ⟨after, shows, concludes⟩ := read_of_settles (enters ▸ reliable.shows)
      (settles_toString (writing.state.register (writer.register 0)) 0)
    exact ⟨after, shows, (delivers_of_concludes concludes).eq_ok⟩

/-- A `q` in the first place and a number that no word holds are refused. The third line is
taken as -17, and the interrupt behind it is left. -/
theorem read_after_two_refusals :
    ∃ after : Console,
      after.Shows [.interrupt]
        ("" ++ String.join (List.replicate 2
          "\n\nIllegal input: number must be in [-32768,32767]\nEnter number (q to quit): ")) ∧
        (decode 0x0301).execute 0
            ⟨.ofImage ⟨[]⟩, .start [.line "q", .line "40000", .line "-0017", .interrupt] .calm⟩ =
          .ok () ⟨(State.ofImage ⟨[]⟩).setRegister 3 (-17), after⟩ := by
  have first : ∀ verdict, ¬Settles 0 (.line "q") verdict :=
    not_settles_of_parse (by decide) fun retried => nomatch retried
  have second : ∀ verdict, ¬Settles 1 (.line "40000") verdict :=
    not_settles_of_parse (by decide) fun _ => by decide
  have undecided : Undecided [.line "q", .line "40000"] :=
    Undecided.cons_iff.mpr ⟨first, List.forall_mem_singleton.mpr second⟩
  have settles : Settles 2 (.line "-0017") (.ok (-17)) :=
    settles_of_parse (show parse? "-0017" = some (-17) by decide) 2
  have ends :
      Ends [.line "q", .line "40000", .line "-0017", .interrupt] 2 [.interrupt] (.ok (-17)) :=
    .final undecided settles
  obtain ⟨-, conversation, -⟩ :=
    @read_ends_at_first_final (decode 0x0301) (decode 0x0302)
      (.start [.line "q", .line "40000", .line "-0017", .interrupt] .calm) (by decide) (by decide)
      ⟨rfl, rfl⟩ 0 (.ofImage ⟨[]⟩)
  obtain ⟨after, shows, delivers⟩ := conversation _ _ _ ends
  exact ⟨after, shows, Delivers.eq_ok delivers⟩

end Instruction

end MiniatureMachine
