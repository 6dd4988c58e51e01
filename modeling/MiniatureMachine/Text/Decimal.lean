/-!
Contract: reading numerals.

Owns:
- the value of a digit string in base ten or sixteen;
- readers of unsigned and of optionally negative decimal numerals.

Numerals have no length limit: a reader returns the mathematical value, and the
caller compares it with the range it accepts.
-/

namespace MiniatureMachine.Text

/-- A character whose code point lies between those of two others, ends
included. -/
def isBetween (first last : Char) (c : Char) : Bool :=
  first.toNat ≤ c.toNat && c.toNat ≤ last.toNat

/-- An ASCII hexadecimal digit of either case. -/
def isHexDigit (c : Char) : Bool :=
  c.isDigit || isBetween 'a' 'f' c || isBetween 'A' 'F' c

def digitValue (c : Char) : Nat :=
  if c.isDigit then c.toNat - '0'.toNat
  else if isBetween 'a' 'f' c then c.toNat - 'a'.toNat + 10
  else c.toNat - 'A'.toNat + 10

/-- The value of a digit string, most significant digit first. -/
def valueOfDigits (base : Nat) (digits : List Char) : Nat :=
  digits.foldl (fun value c => base * value + digitValue c) 0

def isDecimal (text : List Char) : Bool :=
  !text.isEmpty && text.all Char.isDigit

/-- The value of an unsigned decimal numeral. -/
def decimal? (text : List Char) : Option Nat :=
  if isDecimal text then some (valueOfDigits 10 text) else none

/-- The value of a decimal numeral with an optional minus sign. -/
def signedDecimal? : List Char → Option Int
  | '-' :: digits => (decimal? digits).map fun magnitude => -(magnitude : Int)
  | digits => (decimal? digits).map fun magnitude => (magnitude : Int)

end MiniatureMachine.Text
