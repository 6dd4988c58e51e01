import MiniatureMachine.Isa.Instruction

/-!
Contract: the ways a run can fail and what is reported about them.

Owns:
- the causes of a fault, their codes and their messages;
- the context that names the instruction a fault came from;
- the text of a fault report.

A cause carries the numbers its message shows. A report keeps the first context
it is given: the instruction in progress is the one closest to the fault.
-/

namespace MiniatureMachine

/-! ## Codes -/

inductive FaultCode where
  | memoryOutOfBounds
  | badInstruction
  | invalidJumpTarget
  | invalidMemoryTarget
  | divisionByZero
  | integerOverflow
  | invalidOpcode
  | interrupted
  | endOfInput
  | aborted
  | console
deriving DecidableEq, Repr

namespace FaultCode

def text : FaultCode → String
  | memoryOutOfBounds => "memory out of bounds"
  | badInstruction => "bad instruction"
  | invalidJumpTarget => "invalid jump target"
  | invalidMemoryTarget => "invalid memory target"
  | divisionByZero => "division by zero"
  | integerOverflow => "integer overflow"
  | invalidOpcode => "invalid opcode"
  | interrupted => "interrupted"
  | endOfInput => "end of input"
  | aborted => "aborted"
  | console => "console failure"

/-- Whether the operator ended the run, rather than the program. -/
def isOperatorInitiated : FaultCode → Bool
  | interrupted | endOfInput | aborted => true
  | _ => false

end FaultCode

/-! ## Causes -/

inductive Access where
  | load
  | store
deriving DecidableEq, Repr

def Access.text : Access → String
  | load => "load"
  | store => "store"

/-- What went wrong. -/
inductive FaultCause where
  /-- The program counter left the code. -/
  | memoryOutOfBounds (pc : Nat)
  /-- The fetched cell is malformed. -/
  | badInstruction (pc : Nat)
  /-- A jump leads outside the code. -/
  | invalidJumpTarget (pc : Nat) (target : Int)
  /-- A load or a store reaches outside the data cells. -/
  | invalidMemoryTarget (pc : Nat) (access : Access) (target : Int)
  /-- A quotient or a remainder by zero. -/
  | divisionByZero (pc : Nat)
  /-- A result that no word holds. -/
  | integerOverflow (result : Int)
  /-- A word that is no instruction was executed. -/
  | invalidOpcode (pc : Nat)
  /-- The operator interrupted the run. -/
  | interrupted
  /-- The input ended where a line is needed. -/
  | endOfInput
  /-- The operator gave up. -/
  | aborted
  /-- The console failed. -/
  | console (failure : String)
deriving DecidableEq, Repr

namespace FaultCause

def code : FaultCause → FaultCode
  | memoryOutOfBounds _ => .memoryOutOfBounds
  | badInstruction _ => .badInstruction
  | invalidJumpTarget _ _ => .invalidJumpTarget
  | invalidMemoryTarget _ _ _ => .invalidMemoryTarget
  | divisionByZero _ => .divisionByZero
  | integerOverflow _ => .integerOverflow
  | invalidOpcode _ => .invalidOpcode
  | interrupted => .interrupted
  | endOfInput => .endOfInput
  | aborted => .aborted
  | console _ => .console

def message : FaultCause → String
  | memoryOutOfBounds pc =>
      s!"Memory Out of Bounds Error.\nProgram attempted to execute memory location {pc}"
  | badInstruction pc => s!"Bad instruction at memory location {pc}"
  | invalidJumpTarget pc target => s!"Invalid jump target at pc {pc}: {target}"
  | invalidMemoryTarget pc access target =>
      "Invalid " ++ access.text ++ s!" target at pc {pc}: {target}"
  | divisionByZero pc => s!"Division by Zero Error at pc {pc}."
  | integerOverflow result =>
      s!"Integer Overflow Error: Result was larger than 16 bits ({result})."
  | invalidOpcode pc => s!"Invalid operation code at pc {pc}"
  | interrupted => "Interrupted by user, halting program execution..."
  | endOfInput => "End of input, halting program execution..."
  | aborted => "Aborting Program..."
  | console failure => "Console error: " ++ failure

end FaultCause

/-! ## Context -/

/-- The instruction a fault came from. -/
structure FaultContext where
  /-- The address of the instruction. -/
  pc : Nat
  /-- The name of its operation. -/
  instruction : String
  /-- The three lower digit groups of its word. -/
  arguments : String
  /-- Its assembly text. -/
  disassembly : String
deriving DecidableEq, Repr

namespace FaultContext

/-- The context of the instruction that a word at an address decodes to. -/
def ofWord (pc : Nat) (word : Word) : FaultContext :=
  { pc := pc
    instruction := (classify word).name
    arguments := ", ".intercalate (word.groups.drop 1)
    disassembly := disassemble word }

def text (context : FaultContext) : String :=
  s!"  Program Counter: {context.pc}\n" ++
    "  Instruction: " ++ context.instruction ++
    "   Arguments: " ++ context.arguments ++ "\n" ++
    "  Translation: " ++ context.disassembly

end FaultContext

/-! ## Faults and their reports -/

structure FaultReport where
  code : FaultCode
  message : String
  context? : Option FaultContext
deriving DecidableEq, Repr

namespace FaultReport

/-- Adds a context, unless there is one. -/
def withContext (report : FaultReport) (context : FaultContext) : FaultReport :=
  { report with context? := report.context? <|> some context }

/-- The printed report: the context if there is one, the message, and a last
line unless the operator ended the run. -/
def text (report : FaultReport) : String :=
  (match report.context? with
    | some context => "\n" ++ context.text ++ "\n"
    | none => "") ++
  "\n" ++ report.message ++
  (if report.code.isOperatorInitiated then "" else "\nHalting program execution.")

end FaultReport

/-- A fault of the machine: its cause, and the instruction that was executing
when it arose. -/
structure Fault where
  cause : FaultCause
  context? : Option FaultContext
deriving DecidableEq, Repr

namespace Fault

/-- A fault that arose outside any instruction. -/
def bare (cause : FaultCause) : Fault :=
  ⟨cause, none⟩

def report (fault : Fault) : FaultReport :=
  ⟨fault.cause.code, fault.cause.message, fault.context?⟩

end Fault

end MiniatureMachine
