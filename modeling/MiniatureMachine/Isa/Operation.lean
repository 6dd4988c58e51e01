import MiniatureMachine.Isa.Slot

/-!
Contract: the operations of the machine and the operands each of them takes.

Owns:
- the closed set of operations, in the order of the opcode table;
- their assembly names and the reader of a name;
- the operand slots of an operation and where the first of them begins.

Does not own: bit patterns, spellings that only an assembly dialect knows, or
what an operation does.
-/

namespace MiniatureMachine

/-- An operation of the machine. `data` stands for a word that is no
instruction. -/
inductive Operation where
  | halt | read | write | jumpi | loadn | load | store | loadi | storei | addn
  | nop | mov | add | neg | sub | mul | div | mod | jump | call
  | jeqz | jnez | jgtz | jltz | data
deriving DecidableEq, Repr

structure UnknownOperation where
  name : String
deriving DecidableEq, Repr

def UnknownOperation.message (unknown : UnknownOperation) : String :=
  "unknown mnemonic: " ++ unknown.name

namespace Operation

/-- Every operation once, in the order of the opcode table. -/
def all : List Operation :=
  [halt, read, write, jumpi, loadn, load, store, loadi, storei, addn, nop, mov,
    add, neg, sub, mul, div, mod, jump, call, jeqz, jnez, jgtz, jltz, data]

def name : Operation → String
  | halt => "halt"
  | read => "read"
  | write => "write"
  | jumpi => "jumpi"
  | loadn => "loadn"
  | load => "load"
  | store => "store"
  | loadi => "loadi"
  | storei => "storei"
  | addn => "addn"
  | nop => "nop"
  | mov => "mov"
  | add => "add"
  | neg => "neg"
  | sub => "sub"
  | mul => "mul"
  | div => "div"
  | mod => "mod"
  | jump => "jump"
  | call => "call"
  | jeqz => "jeqz"
  | jnez => "jnez"
  | jgtz => "jgtz"
  | jltz => "jltz"
  | data => "data"

def ofName? (name : String) : Option Operation :=
  all.find? fun operation => operation.name == name

def ofName (name : String) : Except UnknownOperation Operation :=
  match ofName? name with
  | some operation => .ok operation
  | none => .error ⟨name⟩

/-- The operand slots of an operation, from the most significant one. -/
def shape : Operation → List Slot
  | halt | nop => []
  | read | write | jumpi => [.register]
  | loadn | addn => [.register, .signedByte]
  | load | store | call | jeqz | jnez | jgtz | jltz => [.register, .unsignedByte]
  | loadi | storei | mov => [.register, .register]
  | add | sub | mul | div | mod => [.register, .register, .register]
  | neg => [.register, .filler, .register]
  | jump => [.filler, .unsignedByte]
  | data => [.word]

/-- How many operands the assembler expects: one for each slot that is not
filler. -/
def operandCount (operation : Operation) : Nat :=
  operation.shape.countP Slot.takesOperand

/-- The bit position just above the first slot. All but `data` keep the top four
bits for the opcode. -/
def origin : Operation → Nat
  | data => 16
  | _ => 12

/-- How many bits the slots of an operation take together. -/
def span (operation : Operation) : Nat :=
  operation.shape.foldr (fun slot total => slot.width + total) 0

/-- The slots of an operation fit below its origin. -/
theorem span_le_origin (operation : Operation) :
    operation.span ≤ operation.origin := by
  cases operation <;> decide

end Operation

end MiniatureMachine
