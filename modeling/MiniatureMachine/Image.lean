import MiniatureMachine.Text.Lines
import MiniatureMachine.Text.Quoted
import MiniatureMachine.Word

/-!
Contract: program images and their text form.

Owns:
- an image as a list of words, some of which may be malformed;
- the reader of image text and the reasons for which it refuses a text;
- the writer of image text.

An image line holds sixteen binary digits. Spaces may stand anywhere in a line,
and a line without digits is skipped. A line with another number of digits is a
malformed word: it loads, and fails only when the machine fetches it.
-/

namespace MiniatureMachine

def memorySize : Nat := 256

/-- A program image. A word is `none` when its line was malformed. -/
structure Image where
  words : List (Option Word)
deriving DecidableEq, Repr

inductive ImageError where
  /-- A character other than a binary digit, a space or a newline. Lines and
  columns count from one, columns in characters. -/
  | invalidCharacter (line column : Nat) (found : Char)
  /-- No line has a digit. -/
  | empty
  /-- More words than the memory holds. -/
  | tooLarge (lines : Nat)
deriving DecidableEq, Repr

def ImageError.message : ImageError → String
  | .invalidCharacter line column found =>
      "not a valid binary file: unexpected " ++ Text.quoted found ++
        s!" at line {line}, column {column}"
  | .empty => "empty file"
  | .tooLarge lines =>
      s!"image has {lines} instructions but memory holds 256 words"

namespace Image

def ofWords (words : List Word) : Image :=
  ⟨words.map some⟩

def codeSize (image : Image) : Nat :=
  image.words.length

def isImageChar (c : Char) : Bool :=
  c == '0' || c == '1' || c == ' '

/-- The first character of a text that may not stand in an image, with its
position. The text starts at the given line and column. -/
def firstForeign? (line column : Nat) : List Char → Option (Nat × Nat × Char)
  | [] => none
  | c :: rest =>
      if c = '\n' then firstForeign? (line + 1) 1 rest
      else if isImageChar c then firstForeign? line (column + 1) rest
      else some (line, column, c)

/-- The word of an image line, if the line has exactly sixteen digits. -/
def wordOfLine? (line : List Char) : Option Word :=
  let digits := (line.filter (· != ' ')).map (· == '1')
  if digits.length = 16 then some (BitVec.ofNat 16 (Bits.value digits)) else none

/-- The lines of an image text that hold a digit. -/
def digitLines (text : List Char) : List (List Char) :=
  (Text.pieces (· == '\n') text).filter fun line => line.any (· != ' ')

/-- Reads an image text. A foreign character is reported before anything else. -/
def read (text : String) : Except ImageError Image :=
  match firstForeign? 1 1 text.toList with
  | some (line, column, found) => .error (.invalidCharacter line column found)
  | none =>
      let lines := digitLines text.toList
      if lines.isEmpty then .error .empty
      else if lines.length > memorySize then .error (.tooLarge lines.length)
      else .ok ⟨lines.map wordOfLine?⟩

/-- Writes image lines, each closed by a newline. -/
def write (lines : List String) : String :=
  String.join (lines.map (· ++ "\n"))

end Image

end MiniatureMachine
