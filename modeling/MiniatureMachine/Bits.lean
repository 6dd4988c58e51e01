/-!
Contract: binary numerals as digit lists, most significant digit first.

Owns:
- the unsigned and the two's-complement value of a digit list;
- the digit list of given width for a number;
- addition that grows on a final carry, complement and negation.

Does not own: the textual form of a digit list, or any limit on its length.
-/

namespace MiniatureMachine.Bits

def value (digits : List Bool) : Nat :=
  digits.foldl (fun total digit => 2 * total + digit.toNat) 0

/-- How many digit lists a width has: two for each further digit. The unsigned
values of that width are the numbers below it. -/
def capacity : (width : Nat) → Nat
  | 0 => 1
  | width + 1 => 2 * capacity width

/-- The value of a digit list whose leading digit carries the sign. -/
def signedValue (digits : List Bool) : Int :=
  if digits.head? = some true then
    (value digits : Int) - capacity digits.length
  else
    (value digits : Int)

/-- The `width` low digits of a number. -/
def ofNat : (width : Nat) → (number : Nat) → List Bool
  | 0, _ => []
  | width + 1, number => number.testBit width :: ofNat width number

/-- The digits of an integer modulo the capacity of the width, which is its
two's-complement form when it lies in the signed range of that width. -/
def ofInt (width : Nat) (number : Int) : List Bool :=
  ofNat width (number % capacity width).toNat

def signedRange (width : Nat) : Int × Int :=
  (-(capacity (width - 1) : Int), (capacity (width - 1) : Int) - 1)

/-- The exact sum. It has the width of the wider operand, and one digit more
when the sum needs it. -/
def add (left right : List Bool) : List Bool :=
  let width := max left.length right.length
  let sum := value left + value right
  ofNat (if sum < capacity width then width else width + 1) sum

def complement (digits : List Bool) : List Bool :=
  digits.map not

/-- Flip every digit, then add one. An all-zero list grows by one digit. -/
def negate (digits : List Bool) : List Bool :=
  add (complement digits) [true]

/-! ## Widths -/

@[simp] theorem length_ofNat (width number : Nat) :
    (ofNat width number).length = width := by
  induction width with
  | zero => rfl
  | succ width inductionHypothesis => simp [ofNat, inductionHypothesis]

@[simp] theorem length_complement (digits : List Bool) :
    (complement digits).length = digits.length := by
  simp [complement]

theorem capacity_pos (width : Nat) : 0 < capacity width := by
  induction width with
  | zero => decide
  | succ width inductionHypothesis =>
      simp only [capacity]
      omega

end MiniatureMachine.Bits
