import Mathlib.Algebra.Group.Nat.Defs
import MiniatureMachine.Bits

/-!
Contract: digit lists and the numbers that they stand for.

Owns:
- the value of a digit list, digit by digit and for lists put together;
- that the digits of a number and the value of a digit list undo each other;
- the value and the width of a sum.
-/

namespace MiniatureMachine.Bits

/-! ## Digits of numbers -/

private theorem foldl_value (digits : List Bool) (total : Nat) :
    digits.foldl (fun total digit => 2 * total + digit.toNat) total =
      total * 2 ^ digits.length + value digits := by
  unfold value
  induction digits generalizing total with
  | nil => simp
  | cons digit digits inductionHypothesis =>
      rw [List.foldl_cons, List.foldl_cons, List.length_cons, inductionHypothesis,
        inductionHypothesis (2 * 0 + digit.toNat)]
      grind

theorem value_cons (digit : Bool) (digits : List Bool) :
    value (digit :: digits) = digit.toNat * 2 ^ digits.length + value digits := by
  calc value (digit :: digits)
      = (2 * 0 + digit.toNat) * 2 ^ digits.length + value digits := foldl_value digits _
    _ = digit.toNat * 2 ^ digits.length + value digits := by rw [Nat.mul_zero, Nat.zero_add]

theorem value_append (front back : List Bool) :
    value (front ++ back) = value front * 2 ^ back.length + value back := by
  rw [value, List.foldl_append, foldl_value]
  rfl

theorem value_append_singleton (digits : List Bool) (digit : Bool) :
    value (digits ++ [digit]) = 2 * value digits + digit.toNat := by
  unfold value
  rw [List.foldl_append]
  rfl

theorem value_replicate_false (count : Nat) : value (List.replicate count false) = 0 := by
  induction count with
  | zero => rfl
  | succ count inductionHypothesis =>
      rw [List.replicate_succ, value_cons, inductionHypothesis, Bool.toNat_false, Nat.zero_mul]

/-- The digits of a number read back as what the width holds of it. -/
theorem value_ofNat (width number : Nat) : value (ofNat width number) = number % 2 ^ width := by
  induction width with
  | zero =>
      rw [Nat.pow_zero, Nat.mod_one]
      rfl
  | succ width inductionHypothesis =>
      rw [ofNat, value_cons, inductionHypothesis, length_ofNat, Nat.mod_pow_succ,
        Nat.toNat_testBit, Nat.mul_comm, Nat.add_comm]

theorem ofNat_mod (width number : Nat) : ofNat width (number % 2 ^ width) = ofNat width number := by
  have cut : ∀ places ≤ width, ofNat places (number % 2 ^ width) = ofNat places number := by
    intro places
    induction places with
    | zero => exact fun _ => rfl
    | succ places inductionHypothesis =>
        intro below
        rw [ofNat, ofNat, inductionHypothesis (Nat.le_of_succ_le below),
          Nat.testBit_mod_two_pow, decide_eq_true (Nat.lt_of_succ_le below), Bool.true_and]
  exact cut width (Nat.le_refl width)

theorem value_lt (digits : List Bool) : value digits < 2 ^ digits.length := by
  induction digits with
  | nil => decide
  | cons digit digits inductionHypothesis =>
      have doubled := Nat.two_pow_succ digits.length
      rw [value_cons, List.length_cons]
      cases digit with
      | false =>
          simp only [Bool.toNat_false]
          omega
      | true =>
          simp only [Bool.toNat_true]
          omega

/-- The value of a digit list has these digits. -/
theorem ofNat_value (digits : List Bool) : ofNat digits.length (value digits) = digits := by
  induction digits with
  | nil => rfl
  | cons digit digits inductionHypothesis =>
      have below := value_lt digits
      have leading : (value (digit :: digits)).testBit digits.length = digit := by
        rw [value_cons, Nat.mul_comm, Nat.testBit_two_pow_mul_add _ below,
          if_neg (Nat.lt_irrefl _), Nat.sub_self]
        cases digit <;> rfl
      have rest : value (digit :: digits) % 2 ^ digits.length = value digits := by
        rw [value_cons, Nat.mul_comm, Nat.mul_add_mod, Nat.mod_eq_of_lt below]
      rw [List.length_cons, ofNat, leading, ← ofNat_mod, rest, inductionHypothesis]

/-- A digit list is told by its length and its value. -/
theorem eq_of_value {digits others : List Bool} (length : digits.length = others.length)
    (same : value digits = value others) : digits = others := by
  rw [← ofNat_value digits, ← ofNat_value others, length, same]

theorem value_eq_zero_iff {digits : List Bool} :
    value digits = 0 ↔ digits = List.replicate digits.length false := by
  constructor
  · intro zero
    exact eq_of_value List.length_replicate.symm (zero.trans (value_replicate_false _).symm)
  · intro same
    rw [same]
    exact value_replicate_false _

/-- The digits of a number that fits are told by their count and their value. -/
theorem eq_ofNat_iff {digits : List Bool} {width number : Nat} (fits : number < 2 ^ width) :
    digits = ofNat width number ↔ digits.length = width ∧ value digits = number := by
  constructor
  · rintro rfl
    exact ⟨length_ofNat width number, (value_ofNat width number).trans (Nat.mod_eq_of_lt fits)⟩
  · rintro ⟨rfl, rfl⟩
    exact (ofNat_value digits).symm

/-- A digit and its complement add up to one, so together they make up the greatest value. -/
theorem value_complement_add (digits : List Bool) :
    value (complement digits) + value digits + 1 = 2 ^ digits.length := by
  induction digits with
  | nil => rfl
  | cons digit digits inductionHypothesis =>
      have cons : complement (digit :: digits) = (!digit) :: complement digits := rfl
      rw [cons, value_cons, value_cons, length_complement, List.length_cons, Nat.pow_succ,
        ← inductionHypothesis]
      cases digit with
      | false =>
          simp only [Bool.not_false, Bool.toNat_true, Bool.toNat_false]
          omega
      | true =>
          simp only [Bool.not_true, Bool.toNat_true, Bool.toNat_false]
          omega

theorem value_complement (digits : List Bool) :
    value (complement digits) = 2 ^ digits.length - 1 - value digits := by
  have sum := value_complement_add digits
  omega

theorem ofNat_add (upper lower number : Nat) :
    ofNat (upper + lower) number = ofNat upper (number >>> lower) ++ ofNat lower number := by
  induction upper with
  | zero =>
      rw [Nat.zero_add]
      rfl
  | succ upper inductionHypothesis =>
      rw [Nat.succ_add, ofNat, ofNat, inductionHypothesis, Nat.testBit_shiftRight,
        Nat.add_comm lower upper, List.cons_append]

theorem capacity_eq (width : Nat) : capacity width = 2 ^ width := by
  induction width with
  | zero => rfl
  | succ width inductionHypothesis =>
      rw [capacity, inductionHypothesis, Nat.pow_succ, Nat.mul_comm]

theorem ofInt_eq (width : Nat) (number : Int) :
    ofInt width number = ofNat width (BitVec.ofInt width number).toNat := by
  rw [ofInt, capacity_eq, BitVec.toNat_ofInt]

/-! ## Sums -/

section Sums

variable (left right : List Bool)

theorem sum_lt : value left + value right < 2 ^ (max left.length right.length + 1) := by
  have leftFits := Nat.lt_of_lt_of_le (value_lt left)
    (Nat.pow_le_pow_right (by decide) (Nat.le_max_left left.length right.length))
  have rightFits := Nat.lt_of_lt_of_le (value_lt right)
    (Nat.pow_le_pow_right (by decide) (Nat.le_max_right left.length right.length))
  rw [Nat.pow_succ]
  omega

/-- The width of a sum: that of the longer list, or one digit more where the sum needs it. -/
def sumWidth : Nat :=
  if value left + value right < 2 ^ max left.length right.length then
    max left.length right.length
  else max left.length right.length + 1

theorem sum_lt_sumWidth : value left + value right < 2 ^ sumWidth left right := by
  unfold sumWidth
  split
  · assumption
  · exact sum_lt left right

theorem add_eq : add left right = ofNat (sumWidth left right) (value left + value right) := by
  rw [add, capacity_eq]
  rfl

theorem value_add : value (add left right) = value left + value right := by
  rw [add_eq, value_ofNat, Nat.mod_eq_of_lt (sum_lt_sumWidth left right)]

theorem length_add : (add left right).length = sumWidth left right := by
  rw [add_eq, length_ofNat]

theorem add_comm : add left right = add right left := by
  unfold add
  rw [Nat.max_comm, Nat.add_comm (value left)]

end Sums

end MiniatureMachine.Bits
