import MiniatureMachine.Machine.Fault
import MiniatureMachine.Text.Blank
import MiniatureMachine.Text.Decimal
import MiniatureMachine.Text.Lines

/-!
Contract: the console between a machine and its operator.

Owns:
- the script of what the operator will enter and the record of what was written;
- the schedule of calls that fail or during which the operator interrupts;
- writing, reading, prompting and the reader of a number.

A console is a value, so a dialogue is a function from consoles to consoles. A
failing call counts as a call and does nothing else. Reading takes one entry off
the script, which is why every dialogue that asks until it is satisfied ends.
-/

namespace MiniatureMachine

inductive Entry where
  /-- A line, without its terminator. -/
  | line (text : String)
  /-- An interrupt in place of a line. -/
  | interrupt
deriving DecidableEq, Repr

inductive Reply where
  | line (text : String)
  | endOfInput
  | interrupted
deriving DecidableEq, Repr

/-- The calls that do not go as usual, by their number counted from zero. -/
structure Schedule where
  /-- Reads that fail, with the text of the failure. -/
  failingReads : List (Nat × String)
  /-- Writes that fail, with the text of the failure. -/
  failingWrites : List (Nat × String)
  /-- Reads during which the operator raises the interrupt flag. -/
  interruptingReads : List Nat
deriving DecidableEq, Repr

/-- The schedule of a console on which every call goes as usual. -/
def Schedule.calm : Schedule := ⟨[], [], []⟩

structure Console where
  /-- The entries that have not been read. -/
  script : List Entry
  /-- Everything written so far. -/
  output : String
  schedule : Schedule
  /-- How many reads there have been. -/
  reads : Nat
  /-- How many writes there have been. -/
  writes : Nat
  /-- Whether the operator has raised the interrupt flag. Nothing lowers it. -/
  interrupted : Bool
deriving DecidableEq, Repr

/-- A conversation with the operator. A fault keeps the console as it is when
the fault arises. -/
abbrev Dialogue := EStateM FaultCause Console

namespace Console

def start (script : List Entry) (schedule : Schedule) : Console :=
  { script := script, output := "", schedule := schedule, reads := 0, writes := 0,
    interrupted := false }

def push (console : Console) (entry : Entry) : Console :=
  { console with script := console.script ++ [entry] }

def raiseInterrupt (console : Console) : Console :=
  { console with interrupted := true }

/-- The lines written so far that are not blank. -/
def outputLines (console : Console) : List String :=
  ((Text.lines console.output.toList).filter fun line => !(Text.trim line).isEmpty).map
    String.ofList

/-! ## Calls -/

def write (text : String) : Dialogue Unit := fun console =>
  let counted := { console with writes := console.writes + 1 }
  match console.schedule.failingWrites.lookup console.writes with
  | some failure => .error (.console failure) counted
  | none => .ok () { counted with output := console.output ++ text }

/-- Writes a text and then, as a second call, a newline. -/
def writeLine (text : String) : Dialogue Unit := do
  write text
  write "\n"

/-- The console after a read has begun: the call is counted, and a scheduled
interrupt raises the flag. -/
def beginRead (console : Console) : Console :=
  { console with
    reads := console.reads + 1
    interrupted :=
      console.interrupted || console.schedule.interruptingReads.contains console.reads }

/-- Takes the next entry off the script. -/
def readLine : Dialogue Reply := fun console =>
  match console.schedule.failingReads.lookup console.reads with
  | some failure => .error (.console failure) { console with reads := console.reads + 1 }
  | none =>
      match console.script with
      | [] => .ok .endOfInput console.beginRead
      | .line text :: rest => .ok (.line text) { console.beginRead with script := rest }
      | .interrupt :: rest => .ok .interrupted { console.beginRead with script := rest }

def prompt (text : String) : Dialogue Reply := do
  write text
  readLine

/-- Insists that a reply is a line. -/
def demand : Reply → Dialogue String
  | .line text => pure text
  | .endOfInput => throw .endOfInput
  | .interrupted => throw .interrupted

def promptLine (text : String) : Dialogue String := do
  demand (← prompt text)

/-! ## What the calls do to the script -/

theorem script_write {text : String} {console after : Console}
    (written : write text console = .ok () after) :
    after.script = console.script := by
  unfold write at written
  split at written
  · cases written
  · cases written
    rfl

theorem script_writeLine {text : String} {console after : Console}
    (written : writeLine text console = .ok () after) :
    after.script = console.script := by
  simp only [writeLine, bind, EStateM.bind] at written
  split at written
  · rename_i first
    exact (script_write written).trans (script_write first)
  · cases written

/-- A line that a prompt obtains was the first entry of the script. -/
theorem script_promptLine {text line : String} {console after : Console}
    (obtained : promptLine text console = .ok line after) :
    console.script = .line line :: after.script := by
  simp only [promptLine, prompt, bind, EStateM.bind] at obtained
  split at obtained
  · rename_i reply middle prompted
    split at prompted
    · rename_i written
      have kept := script_write written
      unfold readLine at prompted
      split at prompted
      · cases prompted
      · split at prompted
        · cases prompted
          cases obtained
        · rename_i entry
          cases prompted
          cases obtained
          rw [← kept]
          exact entry
        · cases prompted
          cases obtained
    · cases prompted
  · cases obtained

end Console

/-! ## Reading a number -/

namespace NumberInput

def retryNotice : String :=
  "\n\nIllegal input: number must be in [-32768,32767]"

def retryPrompt : String :=
  "Enter number (q to quit): "

/-- The word a line stands for: an optional minus sign and decimal digits, with
a value that a word holds. -/
def parse? (text : String) : Option Word :=
  (Text.signedDecimal? text.toList).bind Word.ofInt?

/-- Asks until the reply is a number. A reply of `q` gives up. -/
def retry (console : Console) : EStateM.Result FaultCause Console Word :=
  match _noticed : Console.writeLine retryNotice console with
  | .error cause after => .error cause after
  | .ok () middle =>
      match _obtained : Console.promptLine retryPrompt middle with
      | .error cause after => .error cause after
      | .ok line after =>
          if line = "q" then .error .aborted after
          else
            match parse? line with
            | some word => .ok word after
            | none => retry after
termination_by console.script.length
decreasing_by
  rw [← Console.script_writeLine _noticed, Console.script_promptLine _obtained]
  simp

/-- Reads a number. The first line is taken without a prompt, and there a `q`
is only another line that is no number. -/
def read : Dialogue Word := do
  let line ← Console.demand (← Console.readLine)
  match parse? line with
  | some word => pure word
  | none => retry

end NumberInput

end MiniatureMachine
