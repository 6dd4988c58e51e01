import MiniatureMachine.Assembly.Statement
import MiniatureMachine.Isa.OpcodeTable

/-!
Contract: the encoding of operations with their operand texts.

Owns:
- the forms of registers and numbers;
- the binary digits of an operand for its slot, and the reasons for which a
  token is refused;
- merging the digits of the operands into the template of an operation.

The encoding is a text: the template of the operation keeps its spaces, and the
ones among the operand digits are put in from the left.
-/

namespace MiniatureMachine.Encoding

/-! ## Tokens -/

/-- The number of a register token: `r` or `R` and a decimal numeral below the
number of registers, without needless zeros. -/
def register? (token : List Char) : Option Nat :=
  match token with
  | 'r' :: digits | 'R' :: digits =>
      if digits.length > 1 && digits.head? == some '0' then none
      else (Text.decimal? digits).filter (· < 16)
  | _ => none

/-- The number of a numeric token: hexadecimal digits after `0x` or `0X`, or a
decimal numeral with an optional minus sign. -/
def number? (token : List Char) : Option Int :=
  match token with
  | '0' :: 'x' :: digits | '0' :: 'X' :: digits =>
      some (Text.valueOfDigits 16 digits)
  | _ => Text.signedDecimal? token

/-- Whether a token has the form of a register. -/
def startsAsRegister (token : List Char) : Bool :=
  token.head? == some 'r' || token.head? == some 'R'

/-- Whether a token has the form of a register or of a number. A lone minus sign
passes as one, and is refused later because it has no value. -/
def isRegisterOrNumber (token : List Char) : Bool :=
  match token with
  | 'r' :: digits | 'R' :: digits => Text.isDecimal digits
  | ['-'] => true
  | '0' :: 'x' :: digits | '0' :: 'X' :: digits =>
      !digits.isEmpty && digits.all Text.isHexDigit
  | '-' :: digits => Text.isDecimal digits
  | digits => Text.isDecimal digits

/-! ## Operands -/

def ofNumber (slot : Slot) (token : String) : Except LineError String :=
  if startsAsRegister token.toList then
    .error (.operand (.notANumber token))
  else
    match number? token.toList with
    | none => .error (.operand (.neitherRegisterNorNumber token))
    | some number =>
        match slot.range? with
        | none => .error (.operand (.outOfRange token))
        | some range =>
            if range.1 ≤ number ∧ number ≤ range.2 then
              .ok (BitString.render (Bits.ofInt slot.width number))
            else
              .error (.operand (.outOfRange token))

def ofRegister (token : String) : Except LineError String :=
  match register? token.toList with
  | some number => .ok (BitString.render (Bits.ofNat 4 number))
  | none => .error (.register token)

/-- The binary digits of a token for a slot. -/
def ofToken (slot : Slot) (token : String) : Except LineError String :=
  if token.isEmpty then
    .error (.operand .empty)
  else if !isRegisterOrNumber token.toList then
    .error (.operand (.neitherRegisterNorNumber token))
  else if slot = .register then
    ofRegister token
  else
    ofNumber slot token

/-- The digits of the slots of an operation, from the most significant one. The
first token that is refused decides. -/
def ofTokens : List Slot → List String → Except LineError String
  | [], _ => .ok ""
  | slot :: slots, tokens =>
      if slot.takesOperand then
        match tokens with
        | [] => .ok ""
        | token :: tokens => do
            let digits ← ofToken slot token
            return digits ++ (← ofTokens slots tokens)
      else do
        return "0000" ++ (← ofTokens slots tokens)

/-! ## Templates -/

/-- Puts digits into a template. The spaces of the template stay, and a digit
changes the template only where it is a one. -/
def fill : (template digits : List Char) → List Char
  | [], _ => []
  | place :: template, digits =>
      if place = ' ' then
        ' ' :: fill template digits
      else
        match digits with
        | [] => place :: fill template []
        | digit :: digits => (if digit = '1' then '1' else place) :: fill template digits

/-- Puts the digits of a text, without its spaces, into a template. -/
def insert (template digits : String) : String :=
  String.ofList (fill template.toList (digits.toList.filter (· != ' ')))

/-- The encoding of an operation with an operand text. The number of tokens is
checked before the tokens. -/
def ofOperands (operation : Operation) (operands : String) : Except LineError String :=
  let tokens := Statement.tokens operands
  if tokens.length ≠ operation.operandCount then
    .error (.operand (.wrongCount tokens.length operation.operandCount))
  else do
    let opcodeDigits := if operation.origin = 16 then "" else "0000"
    let operandDigits ← ofTokens operation.shape tokens
    return insert operation.template (opcodeDigits ++ operandDigits)

end MiniatureMachine.Encoding
