import MiniatureMachine.CommandLine.Invocation

/-!
Contract: the program around the command line.

Owns:
- the streams and files of the operating system;
- the order in which they are used.

Does not own: any decision about arguments, programs or machines. What is read,
written and printed is decided by `CommandLine`, `Build`, `Load` and `Session`.

A run takes its input a line at a time. A step that ends for want of input is
taken again, from the session before it, once another line has come: a step
depends only on the input that it reads.
-/

namespace MiniatureMachine.Terminal

/-- A refusal of the operating system. Its code may come negated, and its text
without a capital. -/
def refusal (code : UInt32) (text : String) : FileError :=
  .system (min code.toNat (-code).toNat) text.capitalize

/-- The failure behind an error of the operating system. -/
def fileErrorOf : IO.Error → FileError
  | .noFileOrDirectory _ code text
  | .interrupted _ code text
  | .alreadyExists _ code text
  | .invalidArgument _ code text
  | .permissionDenied _ code text
  | .resourceExhausted _ code text
  | .inappropriateType _ code text
  | .noSuchThing _ code text
  | .otherError code text
  | .resourceBusy code text
  | .resourceVanished code text
  | .unsupportedOperation code text
  | .hardwareFault code text
  | .unsatisfiedConstraints code text
  | .illegalOperation code text
  | .protocolError code text
  | .timeExpired code text => refusal code text
  | error => .system 0 (toString error)

/-- Does something with a file and says how it went. -/
def attempt {α : Type} (action : IO α) : IO (Except FileError α) := do
  try
    return .ok (← action)
  catch error =>
    return .error (fileErrorOf error)

def readTextFile (path : String) : IO (Except FileError String) := do
  return (← attempt (IO.FS.readBinFile path)).bind FileTree.textOfBytes

def printNow (text : String) : IO Unit := do
  let output ← IO.getStdout
  output.putStr text
  output.flush

def emit (outcome : Outcome) : IO UInt32 := do
  printNow outcome.output
  (← IO.getStderr).putStr outcome.errors
  return UInt32.ofNat outcome.status

def buildFile (options : BuildOptions) : IO (Except BuildError AssembledProgram) := do
  match Build.ofContent options.dialect options.source (← readTextFile options.source) with
  | .error error => return .error error
  | .ok (program, text) =>
      let path := CommandLine.outputPath options
      match ← attempt (IO.FS.writeBinFile path text.toUTF8) with
      | .ok () => return .ok program
      | .error error => return .error (.inaccessible path error)

/-- The bytes up to the next newline, or none at the end of the input. -/
partial def nextLine (input : IO.FS.Stream) (line : Array UInt8) :
    IO (Option (List UInt8)) := do
  let bytes ← input.read 1
  match bytes.toList with
  | [] => return if line.isEmpty then none else some line.toList
  | byte :: _ =>
      if byte = StandardInput.newline then return some line.toList
      else nextLine input (line.push byte)

/-- Prints what a console has written beyond what is already printed. -/
def printBeyond (printed : Nat) (console : Console) : IO Unit :=
  printNow (String.ofList (console.output.toList.drop printed))

/-- Runs a session to its end and returns the exit status. The first `printed`
characters of the console's output have been printed before. -/
partial def interact (input : IO.FS.Stream) (session : Session) (printed : Nat) :
    IO UInt32 := do
  match Session.step session with
  | .ok .retired after =>
      printBeyond printed after.console
      interact input { after with console := { after.console with output := "" } } 0
  | .ok .halted after =>
      printBeyond printed after.console
      return UInt32.ofNat (CommandLine.statusOf .halted)
  | .error fault after =>
      printBeyond printed after.console
      let more ← if fault.cause = .endOfInput then nextLine input #[] else pure none
      match more with
      | some line =>
          let console := StandardInput.deliver line session.console
          interact input { session with console := console } after.console.output.length
      | none =>
          printBeyond after.console.output.length (Session.report fault after).console
          return UInt32.ofNat (CommandLine.statusOf (.faulted fault))

def runFile (options : RunOptions) : IO UInt32 := do
  match Load.ofContent (← readTextFile options.image) with
  | .error error => emit (CommandLine.reportLoad options error)
  | .ok image =>
      let console := Console.start [] Schedule.calm
      interact (← IO.getStdin) (CommandLine.startSession options image console) 0

def perform (arguments : List String) : IO UInt32 := do
  match CommandLine.parse arguments with
  | .error error => emit (CommandLine.refuse error)
  | .ok .help => emit CommandLine.showHelp
  | .ok (.build options) => emit (CommandLine.reportBuild options (← buildFile options))
  | .ok (.run options) => runFile options

end MiniatureMachine.Terminal

def main (arguments : List String) : IO UInt32 :=
  MiniatureMachine.Terminal.perform arguments
