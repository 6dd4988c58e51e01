import MiniatureMachine.Bits
import MiniatureMachine.Text.Quoted

/-!
Contract: binary numerals written with the characters `0` and `1`.

Owns:
- reading and writing a digit list as text, with the limits on its length;
- conversion between numbers and fixed-width bit strings;
- arithmetic on bit strings.

The arithmetic is that of `Bits`; this module adds the text form and says which
texts and widths are refused.
-/

namespace MiniatureMachine

inductive BitError where
  /-- The number does not fit in the width. -/
  | outOfRange (number : Int) (width : Nat)
  /-- The text has a character that is no binary digit. -/
  | invalidDigit (found : Char)
  /-- The text is empty where a number is needed. -/
  | empty
  /-- The text is longer than the longest accepted bit string. -/
  | tooWide (length : Nat)
  /-- The width is zero or above the widest field. -/
  | unsupportedWidth (width : Nat)
deriving DecidableEq, Repr

def BitError.message : BitError → String
  | .outOfRange number width => s!"{number} does not fit in {width} bits"
  | .invalidDigit found => "invalid bit character " ++ Text.quoted found
  | .empty => "empty bit string"
  | .tooWide length => s!"bit string of {length} bits is too wide"
  | .unsupportedWidth width => s!"unsupported field width {width}"

namespace BitString

/-- The longest accepted bit string. Length is counted in bytes of UTF-8. -/
def maximalLength : Nat := 63

def maximalWidth : Nat := 32

def digitChar (digit : Bool) : Char :=
  if digit then '1' else '0'

def render (digits : List Bool) : String :=
  String.ofList (digits.map digitChar)

/-- Reads the digits from the left and stops at the first foreign character. -/
def digits : List Char → Except BitError (List Bool)
  | [] => .ok []
  | c :: rest =>
      if c = '0' then (digits rest).map (false :: ·)
      else if c = '1' then (digits rest).map (true :: ·)
      else .error (.invalidDigit c)

/-- Reads a bit string. Its length is checked before its digits. -/
def parse (text : String) : Except BitError (List Bool) :=
  if text.utf8ByteSize > maximalLength then
    .error (.tooWide text.utf8ByteSize)
  else
    digits text.toList

/-- Accepts the widths a number can be converted to. -/
def checkWidth (width : Nat) : Except BitError Unit :=
  if width = 0 ∨ maximalWidth < width then .error (.unsupportedWidth width) else .ok ()

/-- The two's-complement form of a number in the signed range of the width. -/
def ofSigned (number : Int) (width : Nat) : Except BitError String := do
  checkWidth width
  let range := Bits.signedRange width
  if range.1 ≤ number ∧ number ≤ range.2 then
    return render (Bits.ofInt width number)
  else
    throw (.outOfRange number width)

/-- The zero-padded form of a number in the unsigned range of the width. -/
def ofUnsigned (number : Int) (width : Nat) : Except BitError String := do
  checkWidth width
  if 0 ≤ number ∧ number < Bits.capacity width then
    return render (Bits.ofInt width number)
  else
    throw (.outOfRange number width)

/-- Reads a bit string whose leading digit carries the sign. -/
def toSigned (text : String) : Except BitError Int := do
  match ← parse text with
  | [] => throw .empty
  | digit :: rest => return Bits.signedValue (digit :: rest)

/-- Reads a bit string as an unsigned number. The empty string is zero. -/
def toUnsigned (text : String) : Except BitError Nat := do
  return Bits.value (← parse text)

/-- Adds two bit strings. A fault of the left one is reported first. -/
def add (left right : String) : Except BitError String := do
  let leftDigits ← parse left
  let rightDigits ← parse right
  return render (Bits.add leftDigits rightDigits)

def complement (text : String) : Except BitError String := do
  return render (Bits.complement (← parse text))

def negate (text : String) : Except BitError String := do
  return render (Bits.negate (← parse text))

end BitString

end MiniatureMachine
