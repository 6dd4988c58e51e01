import Mathlib.Data.List.Induction
import MiniatureMachine.BitString
import MiniatureMachine.Proofs.Isa.Layout
import MiniatureMachine.Proofs.Text

/-!
Contract: what a digit string means.

Owns:
- digits of a base, and the numerals that are built from them in positional notation;
- the readers of decimal and hexadecimal digits against numerals;
- the numeral that a number is printed as;
- decimal numerals with a sign;
- the binary digits of a number as the only binary numeral of their length.

A numeral grows at its right end: the digit that comes last counts as it is, and every
digit before it counts for the base times as much. Both cases of a letter are digits.
-/

namespace MiniatureMachine.Text

/-! ## Digits and numerals -/

/-- The character stands for a value below the base. -/
def IsDigitOf (base : Nat) (c : Char) (value : Nat) : Prop :=
  value < base ∧ (c = Nat.digitChar value ∨ c = (Nat.digitChar value).toUpper)

instance (base : Nat) (c : Char) (value : Nat) : Decidable (IsDigitOf base c value) :=
  inferInstanceAs (Decidable (_ ∧ _))

/-- One or more digits of the base, most significant digit first, and their number. -/
inductive Numeral (base : Nat) : List Char → Nat → Prop
  | digit {c : Char} {value : Nat} (isDigit : IsDigitOf base c value) : Numeral base [c] value
  | snoc {text : List Char} {number : Nat} {c : Char} {value : Nat}
      (front : Numeral base text number) (isDigit : IsDigitOf base c value) :
      Numeral base (text ++ [c]) (base * number + value)

theorem Numeral.ne_nil {base number : Nat} {text : List Char} (numeral : Numeral base text number) :
    text ≠ [] := by
  cases numeral with
  | digit => exact List.cons_ne_nil _ _
  | snoc => exact List.append_ne_nil_of_right_ne_nil _ (List.cons_ne_nil _ _)

/-! ## Reading -/

theorem isDigitOf_sixteen {c : Char} {value : Nat} :
    IsDigitOf 16 c value ↔ isHexDigit c = true ∧ digitValue c = value := by
  constructor
  · rintro ⟨below, shown⟩
    have read : ∀ value < 16,
        (isHexDigit (Nat.digitChar value) = true ∧ digitValue (Nat.digitChar value) = value) ∧
          isHexDigit (Nat.digitChar value).toUpper = true ∧
            digitValue (Nat.digitChar value).toUpper = value := by
      decide
    rcases shown with rfl | rfl
    · exact (read value below).1
    · exact (read value below).2
  · rintro ⟨digit, rfl⟩
    have read : ∀ point < 103, isHexDigit (Char.ofNat point) = true →
        IsDigitOf 16 (Char.ofNat point) (digitValue (Char.ofNat point)) := by
      decide +kernel
    have holds := read c.toNat (toNat_of_isHexDigit digit).2
    rw [Char.ofNat_toNat] at holds
    exact holds digit

private theorem isDigitOf_ten {c : Char} {value : Nat} :
    IsDigitOf 10 c value ↔ c.isDigit = true ∧ digitValue c = value := by
  constructor
  · rintro ⟨below, shown⟩
    have read := (isDigitOf_sixteen.mp ⟨Nat.lt_trans below (by decide), shown⟩).2
    have isDecimal : ∀ value < 10, (Nat.digitChar value).isDigit = true ∧
        (Nat.digitChar value).toUpper.isDigit = true := by
      decide
    refine ⟨?_, read⟩
    rcases shown with rfl | rfl
    · exact (isDecimal value below).1
    · exact (isDecimal value below).2
  · rintro ⟨digit, rfl⟩
    have bounds := toNat_of_isDigit digit
    have isHex : isHexDigit c = true := by simp [isHexDigit, digit]
    obtain ⟨-, shown⟩ := isDigitOf_sixteen.mpr ⟨isHex, rfl⟩
    refine ⟨?_, shown⟩
    have zero : '0'.toNat = 48 := rfl
    rw [digitValue, if_pos digit]
    omega

private theorem valueOfDigits_append_singleton (base : Nat) (text : List Char) (c : Char) :
    valueOfDigits base (text ++ [c]) = base * valueOfDigits base text + digitValue c := by
  unfold valueOfDigits
  rw [List.foldl_append]
  rfl

private theorem valueOfDigits_singleton (base : Nat) (c : Char) :
    valueOfDigits base [c] = digitValue c := by
  show base * 0 + digitValue c = digitValue c
  omega

/-- When the digits of a base are a class of characters with their values, the numerals are
the texts of that class with the number that the reader finds. -/
theorem numeral_iff {base : Nat} {inClass : Char → Bool}
    (digits : ∀ c value, IsDigitOf base c value ↔ inClass c = true ∧ digitValue c = value)
    {text : List Char} {number : Nat} :
    Numeral base text number ↔
      (text ≠ [] ∧ ∀ c ∈ text, inClass c = true) ∧ valueOfDigits base text = number := by
  constructor
  · intro numeral
    refine ⟨⟨numeral.ne_nil, ?_⟩, ?_⟩
    · induction numeral with
      | digit isDigit => simpa using ((digits _ _).mp isDigit).1
      | snoc front isDigit inductionHypothesis =>
          rw [List.forall_mem_append]
          exact ⟨inductionHypothesis, by simpa using ((digits _ _).mp isDigit).1⟩
    · induction numeral with
      | digit isDigit =>
          rw [valueOfDigits_singleton]
          exact ((digits _ _).mp isDigit).2
      | snoc front isDigit inductionHypothesis =>
          rw [valueOfDigits_append_singleton, inductionHypothesis, ((digits _ _).mp isDigit).2]
  · rintro ⟨⟨present, belong⟩, rfl⟩
    -- The reader keeps a running value, so the last digit is the one to take off.
    induction text using List.reverseRecOn with
    | nil => exact absurd rfl present
    | append_singleton text c inductionHypothesis =>
        obtain ⟨front, last⟩ := List.forall_mem_append.mp belong
        have isDigit : IsDigitOf base c (digitValue c) :=
          (digits _ _).mpr ⟨last c List.mem_cons_self, rfl⟩
        by_cases alone : text = []
        · subst alone
          rw [List.nil_append, valueOfDigits_singleton]
          exact .digit isDigit
        · rw [valueOfDigits_append_singleton]
          exact .snoc (inductionHypothesis alone front) isDigit

theorem numeral_ten_iff {text : List Char} {number : Nat} :
    Numeral 10 text number ↔ decimal? text = some number := by
  rw [numeral_iff (fun _ _ => isDigitOf_ten)]
  unfold decimal? isDecimal
  simp

theorem isDecimal_iff {text : List Char} :
    isDecimal text = true ↔ ∃ number, Numeral 10 text number := by
  simp [numeral_ten_iff, decimal?]

theorem numeral_sixteen_iff {text : List Char} {number : Nat} :
    Numeral 16 text number ↔
      (text ≠ [] ∧ ∀ c ∈ text, isHexDigit c = true) ∧ valueOfDigits 16 text = number :=
  numeral_iff fun _ _ => isDigitOf_sixteen

/-! ## Printed numerals -/

theorem numeral_toString (number : Nat) : Numeral 10 (toString number).toList number :=
  numeral_ten_iff.mpr (decimal?_toString number)

theorem toDigits_of_isDigitOf {c : Char} {value : Nat} (isDigit : IsDigitOf 10 c value) :
    Nat.toDigits 10 value = [c] := by
  obtain ⟨below, shown⟩ := isDigit
  have caseless : ∀ value < 10, (Nat.digitChar value).toUpper = Nat.digitChar value := by decide
  rw [caseless value below, or_self] at shown
  rw [Nat.toDigits_of_lt_base below, shown]

/-- A decimal numeral that does not begin with a zero is the one that its number is printed
as. -/
theorem Numeral.toDigits_eq {text : List Char} {number : Nat} (numeral : Numeral 10 text number)
    (leading : text.head? ≠ some '0') : 0 < number ∧ Nat.toDigits 10 number = text := by
  induction numeral with
  | @digit c value isDigit =>
      refine ⟨?_, toDigits_of_isDigitOf isDigit⟩
      by_contra zero
      obtain rfl : value = 0 := by omega
      obtain ⟨-, rfl | rfl⟩ := isDigit <;> exact leading rfl
  | @snoc text number c value front isDigit inductionHypothesis =>
      rw [List.head?_append, Option.or_of_isSome (by simpa using front.ne_nil)] at leading
      obtain ⟨positive, digits⟩ := inductionHypothesis leading
      refine ⟨by omega, ?_⟩
      rw [← Nat.toDigits_append_toDigits (by decide) positive isDigit.1, digits,
        toDigits_of_isDigitOf isDigit]

/-- The numeral that a positive number is printed as does not begin with a zero. -/
theorem head?_toDigits {number : Nat} (positive : 0 < number) :
    (Nat.toDigits 10 number).head? ≠ some '0' := by
  induction number using Nat.strongRecOn with
  | ind number inductionHypothesis =>
      by_cases single : number < 10
      · have digits : ∀ number < 10, 0 < number →
            [Nat.digitChar number].head? ≠ some '0' := by
          decide
        rw [Nat.toDigits_of_lt_base single]
        exact digits number single positive
      · have front := inductionHypothesis (number / 10) (by omega) (by omega)
        rw [Nat.toDigits_eq_if (by decide), if_neg single, List.head?_append,
          Option.or_of_isSome (by simp)]
        exact front

/-- A decimal numeral is the printed one exactly when it has no needless zero. -/
theorem Numeral.eq_toString_iff {text : List Char} {number : Nat}
    (numeral : Numeral 10 text number) :
    text = (toString number).toList ↔ ¬(1 < text.length ∧ text.head? = some '0') := by
  rw [Nat.toString_eq_ofList_toDigits, String.toList_ofList]
  constructor
  · rintro rfl ⟨long, leading⟩
    by_cases zero : number = 0
    · subst zero
      exact absurd long (by decide)
    · exact head?_toDigits (Nat.pos_of_ne_zero zero) leading
  · intro canonical
    by_cases leading : text.head? = some '0'
    · have short : text.length ≤ 1 := Nat.le_of_not_lt fun long => canonical ⟨long, leading⟩
      cases numeral with
      | digit isDigit => exact (toDigits_of_isDigitOf isDigit).symm
      | snoc front isDigit =>
          have present := List.length_pos_iff.mpr front.ne_nil
          rw [List.length_append, List.length_singleton] at short
          omega
    · exact (numeral.toDigits_eq leading).2.symm

/-! ## Signs -/

/-- A decimal numeral, perhaps behind a minus sign, and its integer. -/
inductive SignedNumeral : List Char → Int → Prop
  | plain {digits : List Char} {magnitude : Nat} (numeral : Numeral 10 digits magnitude) :
      SignedNumeral digits magnitude
  | negative {digits : List Char} {magnitude : Nat} (numeral : Numeral 10 digits magnitude) :
      SignedNumeral ('-' :: digits) (-magnitude)

theorem signedDecimal?_eq_some_iff {text : List Char} {value : Int} :
    signedDecimal? text = some value ↔ SignedNumeral text value := by
  constructor
  · intro read
    unfold signedDecimal? at read
    split at read
    · rename_i digits
      cases found : decimal? digits with
      | none =>
          rw [found] at read
          cases read
      | some magnitude =>
          rw [found] at read
          cases read
          exact .negative (numeral_ten_iff.mpr found)
    · cases found : decimal? text with
      | none =>
          rw [found] at read
          cases read
      | some magnitude =>
          rw [found] at read
          cases read
          exact .plain (numeral_ten_iff.mpr found)
  · intro shows
    cases shows with
    | negative numeral =>
        rw [signedDecimal?, numeral_ten_iff.mp numeral]
        rfl
    | @plain digits magnitude numeral =>
        have decimal := isDecimal_iff.mpr ⟨magnitude, numeral⟩
        unfold signedDecimal?
        split
        · simp [isDecimal] at decimal
        · rw [numeral_ten_iff.mp numeral]
          rfl

theorem signedNumeral_toString (number : Int) :
    SignedNumeral (toString number).toList number := by
  rcases toString_int_cases number with ⟨magnitude, rfl, shown⟩ | ⟨magnitude, rfl, shown⟩
  · rw [shown]
    exact .plain (numeral_toString magnitude)
  · rw [shown]
    exact .negative (numeral_toString magnitude)

/-! ## Binary digits -/

theorem isDigitOf_two {c : Char} {value : Nat} :
    IsDigitOf 2 c value ↔ ∃ digit : Bool, c = BitString.digitChar digit ∧ digit.toNat = value := by
  constructor
  · rintro ⟨below, shown⟩
    have digits : ∀ value < 2, Nat.digitChar value = BitString.digitChar (value == 1) ∧
        (Nat.digitChar value).toUpper = BitString.digitChar (value == 1) ∧
          (value == 1).toNat = value := by
      decide
    obtain ⟨lower, upper, worth⟩ := digits value below
    rw [upper, lower, or_self] at shown
    exact ⟨value == 1, shown, worth⟩
  · rintro ⟨digit, rfl, rfl⟩
    cases digit <;> decide

private theorem numeral_two_iff {text : List Char} {number : Nat} :
    Numeral 2 text number ↔ ∃ digits : List Bool,
      digits ≠ [] ∧ text = digits.map BitString.digitChar ∧ Bits.value digits = number := by
  constructor
  · intro numeral
    induction numeral with
    | digit isDigit =>
        obtain ⟨digit, rfl, rfl⟩ := isDigitOf_two.mp isDigit
        exact ⟨[digit], List.cons_ne_nil _ _, rfl, by simp [Bits.value]⟩
    | snoc front isDigit inductionHypothesis =>
        obtain ⟨digit, rfl, rfl⟩ := isDigitOf_two.mp isDigit
        obtain ⟨digits, -, rfl, rfl⟩ := inductionHypothesis
        exact ⟨digits ++ [digit], by simp, by simp, Bits.value_append_singleton digits digit⟩
  · rintro ⟨digits, present, rfl, rfl⟩
    induction digits using List.reverseRecOn with
    | nil => exact absurd rfl present
    | append_singleton digits digit inductionHypothesis =>
        have isDigit := isDigitOf_two.mpr ⟨digit, rfl, rfl⟩
        by_cases alone : digits = []
        · subst alone
          simpa [Bits.value] using Numeral.digit isDigit
        · rw [Bits.value_append_singleton, List.map_append]
          exact .snoc (inductionHypothesis alone) isDigit

/-- The binary numerals of a length are the digit lists of that width. -/
theorem numeral_ofNat_iff {text : String} {width number : Nat} (positive : 0 < width)
    (fits : number < 2 ^ width) :
    text.toList.length = width ∧ Numeral 2 text.toList number ↔
      text = BitString.render (Bits.ofNat width number) := by
  rw [numeral_two_iff]
  constructor
  · rintro ⟨rfl, digits, -, shown, rfl⟩
    rw [← String.ofList_toList (s := text), shown, BitString.render, String.toList_ofList,
      List.length_map, Bits.ofNat_value]
  · rintro rfl
    rw [BitString.render, String.toList_ofList]
    refine ⟨by simp, Bits.ofNat width number, ?_, rfl, ?_⟩
    · apply List.ne_nil_of_length_pos
      rwa [Bits.length_ofNat]
    · rw [Bits.value_ofNat, Nat.mod_eq_of_lt fits]

end MiniatureMachine.Text
