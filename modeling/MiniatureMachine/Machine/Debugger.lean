import MiniatureMachine.Text.Blank

/-!
Contract: the state and the commands of the debugger.

Owns:
- the mode of a debugging session and whether it traces;
- the commands, their reader and what each does to the session;
- the help text.

A paused session asks for commands before it lets an instruction execute. An
inspection leaves it paused, and any line that is no command is a single step.
-/

namespace MiniatureMachine

/-- What a debugging session is waiting for. -/
inductive DebuggerMode where
  /-- For a command. -/
  | paused
  /-- For the current instruction to finish. -/
  | singleStepping
  /-- For nothing: it lets the program run. -/
  | runningToCompletion
  /-- For nothing: the operator has quit. -/
  | terminated
deriving DecidableEq, Repr

inductive DebugCommand where
  | continue
  | run
  | dump
  | print
  | help
  | quit
  | step
deriving DecidableEq, Repr

namespace DebugCommand

/-- The command of an input line. Blanks around it do not count. -/
def parse (input : String) : DebugCommand :=
  match String.ofList (Text.trim input.toList) with
  | "c" | "continue" => .continue
  | "r" | "run" => .run
  | "d" | "dump" => .dump
  | "p" | "print" => .print
  | "h" | "help" => .help
  | "q" | "quit" => .quit
  | _ => .step

/-- Whether the command only shows something. -/
def isInspection : DebugCommand → Bool
  | .dump | .print | .help => true
  | .continue | .run | .quit | .step => false

end DebugCommand

structure Debugger where
  mode : DebuggerMode
  /-- Whether each instruction is traced before it executes. -/
  tracing : Bool
deriving DecidableEq, Repr

namespace Debugger

/-- A session that pauses before the first instruction. -/
def enabled : Debugger := ⟨.paused, true⟩

/-- A session that lets the program run and traces nothing. -/
def disabled : Debugger := ⟨.runningToCompletion, false⟩

def wantsCommand (debugger : Debugger) : Bool :=
  debugger.mode == .paused

def apply (debugger : Debugger) : DebugCommand → Debugger
  | .continue => { debugger with mode := .runningToCompletion }
  | .run => ⟨.runningToCompletion, false⟩
  | .quit => { debugger with mode := .terminated }
  | .dump | .print | .help => debugger
  | .step => { debugger with mode := .singleStepping }

def finishStep (debugger : Debugger) : Debugger :=
  if debugger.mode = .singleStepping then { debugger with mode := .paused } else debugger

def commandPrompt : String :=
  "\nDebugging Mode Command (h for help): "

def helpText : String :=
  "\nDebugging Mode Commands:\n" ++
  "  'c' or 'continue' : run through the rest of the program (in debugging mode)\n" ++
  "  'd' or 'dump' : print the non-empty portions of memory\n" ++
  "  'h' or 'help' : display this message\n" ++
  "  'p' or 'print' : print the contents of the registers\n" ++
  "  'q' or 'quit' : halt the program and exit\n" ++
  "  'r' or 'run' : run through the rest of the program (exit debugging mode)\n" ++
  "  default : execute the next instruction"

end Debugger

end MiniatureMachine
