import MiniatureMachine.Assembly.LineError
import MiniatureMachine.Text.Blank
import MiniatureMachine.Text.Decimal
import MiniatureMachine.Text.Lines

/-!
Contract: the grammar of a program line,
`<number> <operation> <operands> [# comment]`.

Owns:
- the three parts of a line and the reader that finds them;
- the tokens of an operand text.

The reader checks only the characters of the operand text. Which operands an
operation takes, and whether a token is one, is decided when it is encoded.
-/

namespace MiniatureMachine

structure Statement where
  number : String
  operation : String
  operands : String
deriving DecidableEq, Repr

namespace Statement

def isSeparator (c : Char) : Bool :=
  c == ',' || Text.isBlank c

def isOperandChar (c : Char) : Bool :=
  "-rRxX".toList.contains c || Text.isHexDigit c

/-- What stands before a comment. A comment has to be set off by a blank. -/
def beforeComment? (text : List Char) : Option (List Char) :=
  if text.contains '#' then
    let body := text.takeWhile (· != '#')
    if body.getLast?.any Text.isBlank then some body else none
  else
    some text

/-- A text of operands: it has their characters and separators only, and does
not begin with a comma. -/
def isOperandText (text : List Char) : Bool :=
  text.head? != some ',' && text.all fun c => isOperandChar c || isSeparator c

/-- The operation and the operands of a line without its number. -/
def operationPart? (text : List Char) : Option (List Char × List Char) :=
  let name := text.takeWhile Char.isLower
  if name.isEmpty then none
  else
    match beforeComment? (text.dropWhile Char.isLower) with
    | none => none
    | some body =>
        let operands := Text.trim body
        if isOperandText operands then some (name, operands) else none

def parse (line : String) : Except LineError Statement :=
  let number := line.toList.takeWhile Char.isDigit
  let rest := line.toList.dropWhile Char.isDigit
  if number.isEmpty then
    if (operationPart? rest).isSome then .error .missingLineNumber else .error .malformed
  else if rest.head?.any Text.isBlank then
    match operationPart? (Text.trimStart rest) with
    | some (name, operands) =>
        .ok ⟨String.ofList number, String.ofList name, String.ofList operands⟩
    | none => .error .malformed
  else
    .error .malformed

/-- The tokens between the separators of an operand text. A separator at the end
announces one more token, which is empty. -/
def tokens (operands : String) : List String :=
  let text := operands.toList
  let solid := (Text.pieces isSeparator text).filter fun piece => !piece.isEmpty
  let announced := if text.getLast?.any isSeparator then [[]] else []
  (solid ++ announced).map String.ofList

end Statement

end MiniatureMachine
