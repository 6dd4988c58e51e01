import MiniatureMachine.Proofs.BitString.LongWord

/-!
Contract: addition of bit strings, digit by digit.

Owns:
- addition in columns with a carry;
- that the sum of two numbers, written at the width that it needs, has the digits that the
  columns give;
- the outcome of an addition of texts, faults included.

The columns keep one equation: the digits below the carry, together with the carry in its place,
stand for the sum of what has been added. The sum of two digit lists is known by its length and
its value, so this equation is all that the comparison needs.
-/

namespace MiniatureMachine

namespace Bits

/-! ## Columns -/

/-- Adds the columns from the last one to the first: the carry out of the first column, and the
digits below. -/
def addColumns : List (Bool × Bool) → Bool × List Bool
  | [] => (false, [])
  | (first, second) :: columns =>
      let (carry, digits) := addColumns columns
      (Bool.atLeastTwo first second carry, (first ^^ (second ^^ carry)) :: digits)

/-- The columns of two digit lists, with zeros in front of the shorter one. -/
def columns (left right : List Bool) : List (Bool × Bool) :=
  let width := max left.length right.length
  (left.leftpad width false).zip (right.leftpad width false)

/-- Addition as it is done on paper: column by column, and one digit more for a last carry. -/
def schoolbook (left right : List Bool) : List Bool :=
  let (carry, digits) := addColumns (columns left right)
  if carry then true :: digits else digits

/-- A column adds up three digits to a digit and a carry. -/
theorem column_value (first second carry : Bool) :
    2 * (Bool.atLeastTwo first second carry).toNat + (first ^^ (second ^^ carry)).toNat =
      first.toNat + second.toNat + carry.toNat := by
  cases first <;> cases second <;> cases carry <;> rfl

private theorem length_addColumns (columns : List (Bool × Bool)) :
    (addColumns columns).2.length = columns.length := by
  induction columns with
  | nil => rfl
  | cons column columns inductionHypothesis => exact congrArg Nat.succ inductionHypothesis

/-- The digits and the carry out of the first column stand for the sum. -/
theorem addColumns_value (columns : List (Bool × Bool)) :
    (addColumns columns).1.toNat * 2 ^ columns.length + value (addColumns columns).2 =
      value (columns.map Prod.fst) + value (columns.map Prod.snd) := by
  induction columns with
  | nil => rfl
  | cons column columns inductionHypothesis =>
      obtain ⟨first, second⟩ := column
      have carried := column_value first second (addColumns columns).1
      rw [addColumns, List.map_cons, List.map_cons, value_cons, value_cons, value_cons,
        length_addColumns, List.length_map, List.length_map, List.length_cons, Nat.pow_succ]
      dsimp only
      -- The equation of the column counts once for each number below its place.
      grind

private theorem value_leftpad (width : Nat) (digits : List Bool) :
    value (digits.leftpad width false) = value digits := by
  rw [List.leftpad, value_append, value_replicate_false, Nat.zero_mul, Nat.zero_add]

variable (left right : List Bool)

private theorem length_columns : (columns left right).length = max left.length right.length := by
  rw [columns, List.length_zip, List.length_leftpad, List.length_leftpad]
  omega

/-- The zeros in front do not change what the two rows stand for. -/
theorem value_columns : value ((columns left right).map Prod.fst) = value left ∧
    value ((columns left right).map Prod.snd) = value right := by
  rw [columns, List.map_fst_zip, List.map_snd_zip, value_leftpad, value_leftpad]
  · exact ⟨rfl, rfl⟩
  · rw [List.length_leftpad, List.length_leftpad]
    omega
  · rw [List.length_leftpad, List.length_leftpad]
    omega

/-- The columns of two digit lists give the digits of the sum below the last carry. -/
theorem addColumns_columns :
    (addColumns (columns left right)).2.length = max left.length right.length ∧
      (addColumns (columns left right)).1.toNat * 2 ^ max left.length right.length +
        value (addColumns (columns left right)).2 = value left + value right := by
  have sum := addColumns_value (columns left right)
  rw [(value_columns left right).1, (value_columns left right).2, length_columns] at sum
  exact ⟨(length_addColumns _).trans (length_columns left right), sum⟩

/-- Without a last carry the sum fits in the width of the columns, and with one it does not. -/
theorem add_eq_schoolbook : add left right = schoolbook left right := by
  obtain ⟨length, sum⟩ := addColumns_columns left right
  rw [add_eq]
  refine ((eq_ofNat_iff (sum_lt_sumWidth left right)).mpr ?_).symm
  unfold schoolbook sumWidth
  generalize addColumns (columns left right) = result at *
  obtain ⟨carry, digits⟩ := result
  dsimp only at sum length ⊢
  have below := value_lt digits
  rw [length] at below
  cases carry with
  | false =>
      rw [Bool.toNat_false, Nat.zero_mul, Nat.zero_add] at sum
      rw [sum] at below
      rw [if_pos below]
      exact ⟨length, sum⟩
  | true =>
      rw [Bool.toNat_true, Nat.one_mul] at sum
      have carries : ¬value left + value right < 2 ^ max left.length right.length := by
        rw [← sum]
        exact Nat.not_lt.mpr (Nat.le_add_right _ _)
      have extended : value (true :: digits) = value left + value right := by
        rw [value_cons, length, Bool.toNat_true, Nat.one_mul, sum]
      rw [if_neg carries]
      exact ⟨congrArg Nat.succ length, extended⟩

end Bits

namespace BitString

open Bits

/-! ## Texts -/

/-- The outcome of an addition: the digits that the columns give, or what is wrong with the first
text that is no bit string. -/
inductive AddsTo (left right : String) : Except BitError String → Prop
  | sum {first second : List Bool} (spellsLeft : Spells left first)
      (spellsRight : Spells right second) :
      AddsTo left right (.ok (render (schoolbook first second)))
  | leftFault {fault : BitError} (malformed : Malformed left fault) :
      AddsTo left right (.error fault)
  | rightFault {first : List Bool} {fault : BitError} (spellsLeft : Spells left first)
      (malformed : Malformed right fault) : AddsTo left right (.error fault)

variable {left right : String} {first second : List Bool}

theorem add_of_spells (spellsLeft : Spells left first) (spellsRight : Spells right second) :
    add left right = .ok (render (Bits.add first second)) := by
  rw [add, spellsLeft.parse_eq, spellsRight.parse_eq]
  rfl

theorem AddsTo.add_eq {result : Except BitError String} (addsTo : AddsTo left right result) :
    add left right = result := by
  cases addsTo with
  | sum spellsLeft spellsRight => rw [add_of_spells spellsLeft spellsRight, add_eq_schoolbook]
  | leftFault malformed =>
      rw [add, malformed.parse_eq]
      rfl
  | rightFault spellsLeft malformed =>
      rw [add, spellsLeft.parse_eq, malformed.parse_eq]
      rfl

private theorem addsTo_add (left right : String) : AddsTo left right (add left right) := by
  have outcome : ∃ result, AddsTo left right result := by
    rcases spells_or_malformed left with ⟨first, spellsLeft⟩ | ⟨fault, malformed⟩
    · rcases spells_or_malformed right with ⟨second, spellsRight⟩ | ⟨fault, malformed⟩
      · exact ⟨_, .sum spellsLeft spellsRight⟩
      · exact ⟨_, .rightFault spellsLeft malformed⟩
    · exact ⟨_, .leftFault malformed⟩
  obtain ⟨result, addsTo⟩ := outcome
  exact addsTo.add_eq ▸ addsTo

/-- Bit strings are added in columns. The sum has the width of the longer text, or one digit more
where it needs it, and stands for the exact sum in either order. Other texts are refused for what
is wrong with the first of them. In words of 64 bits the same results come out and no operation
overflows. -/
theorem add_is_schoolbook (left right : String) :
    (∀ result, add left right = result ↔ AddsTo left right result) ∧
      LongWord.addStrings left right = LongWord.accept (add left right) ∧
      ∀ first second, Spells left first → Spells right second →
        ∃ sum, add left right = .ok (render sum) ∧ add right left = .ok (render sum) ∧
          value sum = value first + value second ∧
          sum.length =
            if value first + value second < 2 ^ max first.length second.length then
              max first.length second.length
            else max first.length second.length + 1 := by
  refine ⟨fun result => ⟨?_, AddsTo.add_eq⟩, LongWord.addStrings_eq left right, ?_⟩
  · rintro rfl
    exact addsTo_add left right
  · intro first second spellsLeft spellsRight
    refine ⟨Bits.add first second, add_of_spells spellsLeft spellsRight, ?_, value_add first second,
      length_add first second⟩
    rw [add_of_spells spellsRight spellsLeft, Bits.add_comm]

/-- The last carry may go beyond the digits that a bit string may have. -/
theorem add_carries_beyond_longest :
    (∃ sum, add (render (List.replicate 63 true)) "1" = .ok (render sum) ∧
      value sum = 2 ^ 63 ∧ sum.length = 64) ∧
    AddsTo "01é" "2" (.error (.invalidDigit 'é')) := by
  have longest : Spells (render (List.replicate 63 true)) (List.replicate 63 true) :=
    spells_render (by decide)
  have one : Spells "1" [true] := ⟨by decide, by decide⟩
  obtain ⟨sum, added, -, exact, length⟩ :=
    (add_is_schoolbook (render (List.replicate 63 true)) "1").2.2 _ _ longest one
  refine ⟨⟨sum, added, exact, length⟩, ((add_is_schoolbook "01é" "2").1 _).mp ?_⟩
  decide

end BitString

end MiniatureMachine
