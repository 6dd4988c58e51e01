/-!
Contract: what can be wrong with a line of an assembly program.

Owns:
- the errors of a line, their markers in a listing and their messages;
- diagnostics, which tie an error to its place in the source.
-/

namespace MiniatureMachine

inductive OperandProblem where
  /-- The line has another number of operands than its operation takes. -/
  | wrongCount (found expected : Nat)
  /-- Nothing stands where an operand is expected. -/
  | empty
  /-- The token has neither the form of a register nor that of a number. -/
  | neitherRegisterNorNumber (token : String)
  /-- A register stands where a number is expected. -/
  | notANumber (token : String)
  /-- The number does not fit in its slot. -/
  | outOfRange (token : String)
deriving DecidableEq, Repr

def OperandProblem.message : OperandProblem → String
  | .wrongCount found expected =>
      "WRONG NUMBER OF ARGUMENTS.\n" ++
        s!"DETECTED {found} ARGUMENTS, EXPECTED {expected} ARGUMENTS."
  | .empty => "EMPTY ARGUMENT."
  | .neitherRegisterNorNumber token =>
      "'" ++ token ++ "' IS NEITHER A REGISTER NOR A NUMBER."
  | .notANumber token => "'" ++ token ++ "' IS NOT A VALID NUMBER."
  | .outOfRange token => "'" ++ token ++ "' IS OUT OF RANGE FOR THE ARGUMENT."

inductive LineError where
  /-- The line does not follow the grammar. -/
  | malformed
  /-- The line would follow the grammar if it began with a number. -/
  | missingLineNumber
  /-- The line does not have the number of its place in the program. -/
  | badLineNumber (found : String) (expected : Nat)
  /-- No operation has the name. -/
  | unknownOperation (name : String)
  /-- Something is wrong with the operands. -/
  | operand (problem : OperandProblem)
  /-- The token names no register. -/
  | register (token : String)
deriving DecidableEq, Repr

namespace LineError

/-- What stands in the listing in place of an encoding. -/
def marker : LineError → String
  | malformed => "***SYNTAX ERROR HERE***"
  | missingLineNumber => "***MISSING LINE NUMBER HERE***"
  | badLineNumber _ _ => "***BAD LINE NUMBER HERE***"
  | unknownOperation _ => "***OPERATION ERROR HERE***"
  | operand _ => "***ARGUMENT ERROR HERE***"
  | register _ => "***REGISTER ERROR HERE***"

def message : LineError → String
  | malformed => "SYNTAX ERROR"
  | missingLineNumber => "MISSING LINE NUMBER"
  | badLineNumber found expected =>
      "BAD LINE NUMBER\nLINE NUMBER: " ++ found ++ s!" EXPECTED: {expected}"
  | unknownOperation name =>
      "OPERATION ERROR:\n'" ++ name ++ "' IS NOT A VALID OPERATION."
  | operand problem => "ARGUMENT ERROR:\n" ++ problem.message
  | register token => "REGISTER ERROR:\n'" ++ token ++ "' IS NOT A VALID REGISTER."

end LineError

structure Diagnostic where
  /-- The place of the line among the program lines, from zero. -/
  index : Nat
  /-- The line of the source text, from one. -/
  sourceLine : Nat
  error : LineError
  /-- The text of the line. -/
  text : String
deriving DecidableEq, Repr

def Diagnostic.message (diagnostic : Diagnostic) : String :=
  match diagnostic.error with
  | .malformed | .missingLineNumber =>
      diagnostic.error.message ++ s!" ON LINE {diagnostic.index}:\n" ++ diagnostic.text
  | .badLineNumber found expected =>
      s!"BAD LINE NUMBER AT LINE {diagnostic.index}:\n" ++
        "LINE NUMBER: " ++ found ++ s!" EXPECTED: {expected}"
  | .unknownOperation _ | .operand _ | .register _ =>
      diagnostic.error.message ++ "\n" ++ diagnostic.text

end MiniatureMachine
