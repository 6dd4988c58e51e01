import MiniatureMachine.Assembly.Listing
import MiniatureMachine.CommandLine.Options
import MiniatureMachine.CommandLine.StandardInput
import MiniatureMachine.Files.Build
import MiniatureMachine.Files.Load
import MiniatureMachine.Machine.Run

/-!
Contract: the command line as a function.

Owns:
- the usage text and the messages of the commands;
- what an invocation writes, the exit status it ends with and the file tree it
  leaves.

The function takes the files and the standard input as values, so it can be run
and reasoned about without an operating system.
-/

namespace MiniatureMachine

structure Outcome where
  status : Nat
  output : String
  errors : String
deriving DecidableEq, Repr

namespace CommandLine

def usage : String :=
  "Usage: hmmm <command> [options]\n" ++
  "\n" ++
  "Commands:\n" ++
  "  build <source> [-o <output>] [--legacy-names] [--quiet]  " ++
    "Assemble source to a binary image\n" ++
  "  run   <binary> [-d | -n]                                 " ++
    "Run a binary image\n" ++
  "\n" ++
  "Options:\n" ++
  "  -o, --output <file>  Output file path (default: source stem + .b)\n" ++
  "      --legacy-names   Resolve mnemonics with the 2012 naming (build only)\n" ++
  "  -q, --quiet          Do not print the assembly listing (build only)\n" ++
  "  -d, --debug          Start in the debugger (run only)\n" ++
  "  -n, --no-debug       Never ask to enter the debugger (run only)\n" ++
  "  -h, --help           Show this help message\n" ++
  "\n" ++
  "Examples:\n" ++
  "  hmmm build countdown.hmmm\n" ++
  "  hmmm build countdown.hmmm -o countdown.b\n" ++
  "  hmmm run countdown.b -n\n"

def usageMessage : UsageError → String
  | .missingCommand => "missing command"
  | .unknownCommand name => "unknown command: " ++ name
  | .helpRequested => usage
  | .unknownOption option => "unknown option: " ++ option
  | .missingOutput => "missing value for -o"
  | .multipleInputs => "multiple input paths provided"
  | .missingInput => "missing input path"

/-- The outcome of a refused argument list. A request for help inside a command
shows the usage, and still counts as a refusal. -/
def refuse (error : UsageError) : Outcome :=
  match error with
  | .helpRequested => ⟨1, usage ++ "\n", ""⟩
  | error => ⟨1, "", "error: " ++ usageMessage error ++ "\n" ++ usage ++ "\n"⟩

def showHelp : Outcome :=
  ⟨0, usage ++ "\n", ""⟩

/-! ## Build -/

def outputPath (options : BuildOptions) : String :=
  options.output?.getD (Path.defaultOutput options.source)

def listingOf (options : BuildOptions) (program : AssembledProgram) : String :=
  if options.quiet then "" else program.listing

def announcement (options : BuildOptions) (program : AssembledProgram) : String :=
  "Assembled " ++ options.source ++ s!" ({program.lines.length} words) -> " ++
    outputPath options ++ "\n"

def reportBuild (options : BuildOptions) : Except BuildError AssembledProgram → Outcome
  | .ok program =>
      ⟨0, listingOf options program ++ announcement options program, ""⟩
  | .error (.lines program) =>
      ⟨1, listingOf options program,
        String.join (program.diagnostics.map fun diagnostic =>
          diagnostic.message ++ "\n\n")⟩
  | .error .empty =>
      ⟨1, listingOf options ⟨[]⟩, "error: " ++ options.source ++ ": empty file\n"⟩
  | .error (.inaccessible path error) =>
      ⟨1, "", "error: " ++ (BuildError.inaccessible path error).message ++ "\n"⟩

/-! ## Run -/

def startSession (options : RunOptions) (image : Image) (console : Console) : Session :=
  Session.start image ⟨options.debug, true⟩ console

def reportLoad (options : RunOptions) (error : LoadError) : Outcome :=
  ⟨1, "", "error: " ++ options.image ++ ": " ++ error.message ++ "\n"⟩

def statusOf : Ending → Nat
  | .halted => 0
  | .faulted _ => 1

def reportRun (finished : Finished) : Outcome :=
  ⟨statusOf finished.ending, finished.session.console.output, ""⟩

def runImage (fuel : Nat) (options : RunOptions) (tree : FileTree) (input : ByteArray) :
    Option Outcome :=
  match Load.run options.image tree with
  | .error error => some (reportLoad options error)
  | .ok image =>
      (Session.run fuel (startSession options image (StandardInput.console input))).map
        reportRun

/-! ## Whole invocations -/

/-- What an argument list does to a file tree, given the standard input. There is
no result when a program runs for more than `fuel` steps. -/
def invoke (fuel : Nat) (arguments : List String) (tree : FileTree) (input : ByteArray) :
    Option (Outcome × FileTree) :=
  match parse arguments with
  | .error error => some (refuse error, tree)
  | .ok .help => some (showHelp, tree)
  | .ok (.build options) =>
      let built := Build.run options.dialect options.source (outputPath options) tree
      some (reportBuild options built.1, built.2)
  | .ok (.run options) =>
      (runImage fuel options tree input).map fun outcome => (outcome, tree)

end CommandLine

end MiniatureMachine
