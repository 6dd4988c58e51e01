import Mathlib.Algebra.Ring.Int.Defs
import MiniatureMachine.Proofs.BitString.Reading
import MiniatureMachine.Proofs.Bits

/-!
Contract: bit strings in words of 64 bits.

Owns:
- operations on words that have no result when they overflow;
- reading and writing bit strings with these operations;
- the arithmetic of bit strings computed with them, which never overflows and has the results
  that the computation with unlimited numbers has.

Does not own: signed words.

A bit string has 63 digits at most, so its value leaves one bit of a word free. That bit takes
the carry of a sum. Everything below follows from two facts: no digit is lost on reading, and a
word is written with the digits of its number.
-/

namespace MiniatureMachine

abbrev LongWord := BitVec 64

namespace LongWord

/-! ## Operations -/

/-- A computation with words. It may refuse its input, and it has no result of either kind if
an operation overflows. -/
abbrev Checked := ExceptT BitError Option

def accept {α : Type} (result : Except BitError α) : Checked α :=
  ExceptT.mk (some result)

/-- The result of an operation, unless the operation overflows. -/
def checked {α : Type} (overflows : Bool) (result : α) : Checked α :=
  if overflows then ExceptT.mk none else pure result

variable {size : Nat}

def add (left right : BitVec size) : Checked (BitVec size) :=
  checked (left.uaddOverflow right) (left + right)

def subtract (left right : BitVec size) : Checked (BitVec size) :=
  checked (left.usubOverflow right) (left - right)

/-- A shift overflows when it goes beyond the word and also when it loses a digit. -/
def shiftLeft (word : BitVec size) (places : Nat) : Checked (BitVec size) :=
  checked (decide (size ≤ places) || (word <<< places) >>> places != word) (word <<< places)

def shiftRight (word : BitVec size) (places : Nat) : Checked (BitVec size) :=
  checked (decide (size ≤ places)) (word >>> places)

def mask (width : Nat) : Checked LongWord := do
  subtract (← shiftLeft 1 width) 1

/-! ## Bit strings -/

/-- Shifts the digit of a character in from the right. -/
def shiftIn (word : LongWord) (c : Char) : Checked LongWord :=
  if c = '0' then shiftLeft word 1
  else if c = '1' then do return (← shiftLeft word 1) ||| 1
  else throw (.invalidDigit c)

/-- Reads a bit string as its number and its length. -/
def parse (text : String) : Checked (LongWord × Nat) := do
  if text.utf8ByteSize > BitString.maximalLength then
    throw (.tooWide text.utf8ByteSize)
  else
    return (← text.toList.foldlM shiftIn 0, text.utf8ByteSize)

/-- Writes the number of a word in binary, with zeros in front of it up to the width. -/
def render (word : LongWord) (width : Nat) : String :=
  String.ofList ((Nat.toDigits 2 word.toNat).leftpad width '0')

def addParsed (left right : LongWord × Nat) : Checked String := do
  let width := max left.2 right.2
  let sum ← add left.1 right.1
  if width = 0 then return ""
  else if (← shiftRight sum width) = 0 then return render sum width
  else return render sum (width + 1)

def addStrings (left right : String) : Checked String := do
  let parsedLeft ← parse left
  let parsedRight ← parse right
  addParsed parsedLeft parsedRight

def complementParsed (parsed : LongWord × Nat) : Checked String := do
  if parsed.2 = 0 then return ""
  else return render (~~~parsed.1 &&& (← mask parsed.2)) parsed.2

def complement (text : String) : Checked String := do
  complementParsed (← parse text)

def negate (text : String) : Checked String := do
  addStrings (← complement text) "1"

/-! ## What the operations do -/

theorem accept_ok_bind {α β : Type} (result : α) (next : α → Checked β) :
    accept (.ok result) >>= next = next result :=
  rfl

theorem checked_of_eq_false {α : Type} {overflows : Bool} (fits : overflows = false)
    (result : α) : checked overflows result = accept (.ok result) := by
  subst fits
  rfl

private theorem add_ofNat {left right : Nat} (fits : left + right < 2 ^ size) :
    add (BitVec.ofNat size left) (BitVec.ofNat size right) =
      accept (.ok (BitVec.ofNat size (left + right))) := by
  have small : left < 2 ^ size ∧ right < 2 ^ size := by omega
  rw [add, BitVec.ofNat_add]
  refine checked_of_eq_false ?_ _
  rw [BitVec.uaddOverflow, BitVec.toNat_ofNat, BitVec.toNat_ofNat, Nat.mod_eq_of_lt small.1,
    Nat.mod_eq_of_lt small.2]
  exact decide_eq_false (Nat.not_le.mpr fits)

private theorem subtract_ofNat {left right : Nat} (below : right ≤ left) (fits : left < 2 ^ size) :
    subtract (BitVec.ofNat size left) (BitVec.ofNat size right) =
      accept (.ok (BitVec.ofNat size (left - right))) := by
  have small : right < 2 ^ size := by omega
  have difference : BitVec.ofNat size left - BitVec.ofNat size right =
      BitVec.ofNat size (left - right) := by
    apply BitVec.eq_of_toNat_eq
    rw [BitVec.toNat_sub_of_le, BitVec.toNat_ofNat, BitVec.toNat_ofNat, BitVec.toNat_ofNat,
      Nat.mod_eq_of_lt fits, Nat.mod_eq_of_lt small, Nat.mod_eq_of_lt (by omega)]
    rw [BitVec.le_def, BitVec.toNat_ofNat, BitVec.toNat_ofNat, Nat.mod_eq_of_lt fits,
      Nat.mod_eq_of_lt small]
    exact below
  rw [subtract, difference]
  refine checked_of_eq_false ?_ _
  rw [BitVec.usubOverflow, BitVec.toNat_ofNat, BitVec.toNat_ofNat, Nat.mod_eq_of_lt small,
    Nat.mod_eq_of_lt fits]
  exact decide_eq_false (Nat.not_lt.mpr below)

theorem shiftLeft_ofNat {number places : Nat} (inside : places < size)
    (fits : number * 2 ^ places < 2 ^ size) :
    shiftLeft (BitVec.ofNat size number) places =
      accept (.ok (BitVec.ofNat size (number * 2 ^ places))) := by
  have positive := Nat.two_pow_pos places
  have small : number < 2 ^ size :=
    Nat.lt_of_le_of_lt (Nat.le_mul_of_pos_right number positive) fits
  have shifted : BitVec.ofNat size number <<< places = BitVec.ofNat size (number * 2 ^ places) := by
    apply BitVec.eq_of_toNat_eq
    rw [BitVec.toNat_shiftLeft, BitVec.toNat_ofNat, BitVec.toNat_ofNat, Nat.mod_eq_of_lt small,
      Nat.shiftLeft_eq]
  have back : BitVec.ofNat size (number * 2 ^ places) >>> places = BitVec.ofNat size number := by
    apply BitVec.eq_of_toNat_eq
    rw [BitVec.toNat_ushiftRight, BitVec.toNat_ofNat, BitVec.toNat_ofNat, Nat.mod_eq_of_lt small,
      Nat.mod_eq_of_lt fits, Nat.shiftRight_eq_div_pow, Nat.mul_div_cancel _ positive]
  rw [shiftLeft, shifted, back]
  refine checked_of_eq_false ?_ _
  rw [decide_eq_false (Nat.not_le.mpr inside), bne_self_eq_false]
  rfl

private theorem shiftRight_ofNat {number places : Nat} (inside : places < size)
    (fits : number < 2 ^ size) :
    shiftRight (BitVec.ofNat size number) places =
      accept (.ok (BitVec.ofNat size (number / 2 ^ places))) := by
  have shifted : BitVec.ofNat size number >>> places = BitVec.ofNat size (number / 2 ^ places) := by
    have smaller := Nat.div_le_self number (2 ^ places)
    apply BitVec.eq_of_toNat_eq
    rw [BitVec.toNat_ushiftRight, BitVec.toNat_ofNat, BitVec.toNat_ofNat, Nat.mod_eq_of_lt fits,
      Nat.mod_eq_of_lt (by omega), Nat.shiftRight_eq_div_pow]
  rw [shiftRight, shifted]
  exact checked_of_eq_false (decide_eq_false (Nat.not_le.mpr inside)) _

private theorem ofNat_eq_zero_iff {number : Nat} (fits : number < 2 ^ size) :
    BitVec.ofNat size number = 0 ↔ number = 0 := by
  rw [BitVec.toNat_eq, BitVec.toNat_ofNat, Nat.mod_eq_of_lt fits]
  rfl

theorem mask_eq {width : Nat} (inside : width < 64) :
    mask width = accept (.ok (BitVec.ofNat 64 (2 ^ width - 1))) := by
  have bounded : 2 ^ width < 2 ^ 64 := Nat.pow_lt_pow_right (by decide) inside
  have shifted := @shiftLeft_ofNat 64 1 width inside (by omega)
  rw [Nat.one_mul] at shifted
  rw [mask, show (1 : LongWord) = BitVec.ofNat 64 1 from rfl, shifted, accept_ok_bind]
  exact subtract_ofNat (Nat.one_le_two_pow) bounded

theorem and_mask (word : LongWord) {width : Nat} (inside : width < 64) :
    word &&& BitVec.ofNat 64 (2 ^ width - 1) = BitVec.ofNat 64 (word.toNat % 2 ^ width) := by
  have bounded : 2 ^ width < 2 ^ 64 := Nat.pow_lt_pow_right (by decide) inside
  have maskSmall : 2 ^ width - 1 < 2 ^ 64 := by omega
  have restSmall := Nat.lt_of_le_of_lt (Nat.mod_le word.toNat (2 ^ width)) word.isLt
  apply BitVec.eq_of_toNat_eq
  rw [BitVec.toNat_and, BitVec.toNat_ofNat, BitVec.toNat_ofNat, Nat.mod_eq_of_lt maskSmall,
    Nat.and_two_pow_sub_one_eq_mod, Nat.mod_eq_of_lt restSmall]

/-! ## Reading and writing -/

private theorem shiftIn_digitChar {number : Nat} (fits : number < 2 ^ 63) (digit : Bool) :
    shiftIn (BitVec.ofNat 64 number) (BitString.digitChar digit) =
      accept (.ok (BitVec.ofNat 64 (2 * number + digit.toNat))) := by
  have shifted := @shiftLeft_ofNat 64 number 1 (by decide) (by omega)
  rw [Nat.pow_one, Nat.mul_comm] at shifted
  cases digit with
  | false => exact shifted
  | true =>
      have next : BitVec.ofNat 64 (2 * number) ||| 1 = BitVec.ofNat 64 (2 * number + 1) := by
        apply BitVec.eq_of_toNat_eq
        have one : (1 : LongWord).toNat = 1 := rfl
        rw [BitVec.toNat_or, one, BitVec.toNat_ofNat, BitVec.toNat_ofNat,
          Nat.mod_eq_of_lt (by omega), Nat.mod_eq_of_lt (by omega)]
        exact (@Nat.two_pow_add_eq_or_of_lt 1 1 (by decide) number).symm
      show (do return (← shiftLeft (BitVec.ofNat 64 number) 1) ||| 1 : Checked LongWord) = _
      rw [shifted, accept_ok_bind, next]
      rfl

/-- No digit of a bit string is lost: what has been read leaves room for what is to come. -/
theorem foldlM_shiftIn {list : List Bool} {number places : Nat} (read : number < 2 ^ places)
    (fits : places + list.length ≤ 64) (rest : List Char) :
    (list.map BitString.digitChar ++ rest).foldlM shiftIn (BitVec.ofNat 64 number) =
      rest.foldlM shiftIn
        (BitVec.ofNat 64 (list.foldl (fun total digit => 2 * total + digit.toNat) number)) := by
  induction list generalizing number places with
  | nil => rfl
  | cons digit list inductionHypothesis =>
      rw [List.length_cons] at fits
      have room : number < 2 ^ 63 :=
        Nat.lt_of_lt_of_le read (Nat.pow_le_pow_right (by decide) (by omega))
      have small := digit.toNat_lt
      rw [List.map_cons, List.cons_append, List.foldlM_cons, shiftIn_digitChar room,
        accept_ok_bind, List.foldl_cons]
      refine @inductionHypothesis (2 * number + digit.toNat) (places + 1) ?_ (by omega)
      rw [Nat.pow_succ]
      omega

private theorem parse_of_spells {text : String} {list : List Bool}
    (spells : BitString.Spells text list) :
    parse text = accept (.ok (BitVec.ofNat 64 (Bits.value list), list.length)) := by
  obtain ⟨rfl, short⟩ := spells
  have read := @foldlM_shiftIn list 0 0 (by decide) (by omega) []
  rw [List.append_nil, ← BitString.toList_render] at read
  have fits : ¬(BitString.render list).utf8ByteSize > BitString.maximalLength := by
    rw [BitString.utf8ByteSize_render]
    exact Nat.not_lt.mpr short
  rw [parse, if_neg fits, BitString.utf8ByteSize_render,
    show (0 : LongWord) = BitVec.ofNat 64 0 from rfl, read]
  rfl

private theorem parse_of_malformed {text : String} {fault : BitError}
    (malformed : BitString.Malformed text fault) : parse text = accept (.error fault) := by
  cases malformed with
  | tooWide long =>
      have tooLong : text.utf8ByteSize > BitString.maximalLength := long
      rw [parse, if_pos tooLong]
      rfl
  | @invalidDigit list found rest short shown foreign =>
      have fits : ¬text.utf8ByteSize > BitString.maximalLength := Nat.not_lt.mpr short
      have parts : text = BitString.render list ++ String.ofList (found :: rest) := by
        rw [BitString.render, ← String.ofList_append, ← shown, String.ofList_toList]
      have room : 0 + list.length ≤ 64 := by
        rw [parts, String.utf8ByteSize_append, BitString.utf8ByteSize_render] at short
        omega
      rw [parse, if_neg fits, shown, show (0 : LongWord) = BitVec.ofNat 64 0 from rfl,
        foldlM_shiftIn (by decide) room, List.foldlM_cons, shiftIn, if_neg foreign.1,
        if_neg foreign.2]
      rfl

private theorem map_ofNat_succ (width number : Nat) :
    (Bits.ofNat (width + 1) number).map BitString.digitChar =
      (Bits.ofNat width (number / 2)).map BitString.digitChar ++ [Nat.digitChar (number % 2)] := by
  have last : (Bits.ofNat 1 number).map BitString.digitChar = [Nat.digitChar (number % 2)] := by
    show [BitString.digitChar (number.testBit 0)] = _
    rw [Nat.testBit_zero]
    rcases Nat.mod_two_eq_zero_or_one number with even | odd
    · rw [even]
      rfl
    · rw [odd]
      rfl
  rw [Bits.ofNat_add, List.map_append, last, Nat.shiftRight_eq_div_pow, Nat.pow_one]

/-- Printing halves the number until one digit is left, and the padding makes up for the
halvings that were not needed. -/
theorem leftpad_toDigits_succ (width number : Nat) :
    (Nat.toDigits 2 number).leftpad (width + 2) '0' =
      (Nat.toDigits 2 (number / 2)).leftpad (width + 1) '0' ++ [Nat.digitChar (number % 2)] := by
  by_cases single : number < 2
  · have halved : number / 2 = 0 := by omega
    rw [halved, Nat.mod_eq_of_lt single, Nat.toDigits_of_lt_base single,
      Nat.toDigits_of_lt_base (by decide)]
    show List.replicate (width + 1) '0' ++ _ = List.replicate width '0' ++ ['0'] ++ _
    rw [List.replicate_succ']
  · have digits : Nat.toDigits 2 number =
        Nat.toDigits 2 (number / 2) ++ [Nat.digitChar (number % 2)] := by
      rw [Nat.toDigits_eq_if (by decide), if_neg single]
    have missing (length : Nat) : width + 2 - (length + 1) = width + 1 - length := by omega
    rw [digits, List.leftpad, List.length_append, List.length_singleton, missing,
      List.leftpad, List.append_assoc]

/-- The digits that a number is printed with, padded to a width, are the digits that it has at
the width. -/
theorem leftpad_toDigits (width : Nat) {number : Nat} (fits : number < 2 ^ (width + 1)) :
    (Nat.toDigits 2 number).leftpad (width + 1) '0' =
      (Bits.ofNat (width + 1) number).map BitString.digitChar := by
  induction width generalizing number with
  | zero =>
      have small : number < 2 := fits
      rw [map_ofNat_succ, Nat.toDigits_of_lt_base small, Nat.mod_eq_of_lt small]
      rfl
  | succ width inductionHypothesis =>
      have half : number / 2 < 2 ^ (width + 1) := by
        rw [Nat.pow_succ] at fits
        omega
      rw [leftpad_toDigits_succ, map_ofNat_succ, inductionHypothesis half]

theorem render_ofNat {width number : Nat} (positive : 0 < width) (inside : width ≤ 64)
    (fits : number < 2 ^ width) :
    render (BitVec.ofNat 64 number) width = BitString.render (Bits.ofNat width number) := by
  have bounded : number < 2 ^ 64 :=
    Nat.lt_of_lt_of_le fits (Nat.pow_le_pow_right (by decide) inside)
  obtain ⟨width, rfl⟩ := Nat.exists_eq_succ_of_ne_zero (Nat.ne_of_gt positive)
  rw [render, BitVec.toNat_ofNat, Nat.mod_eq_of_lt bounded]
  exact congrArg String.ofList (leftpad_toDigits width fits)

/-! ## Arithmetic -/

/-- Reading a bit string in words finds its number and its length. -/
theorem parse_cases (text : String) :
    (∃ list, BitString.Spells text list ∧ BitString.parse text = .ok list ∧
        parse text = accept (.ok (BitVec.ofNat 64 (Bits.value list), list.length))) ∨
      ∃ fault, BitString.parse text = .error fault ∧ parse text = accept (.error fault) := by
  rcases BitString.spells_or_malformed text with ⟨list, spells⟩ | ⟨fault, malformed⟩
  · exact .inl ⟨list, spells, spells.parse_eq, parse_of_spells spells⟩
  · exact .inr ⟨fault, malformed.parse_eq, parse_of_malformed malformed⟩

/-- A sum has the width of the longer operand, or one digit more if something is left of it
above that width. -/
theorem addParsed_eq {first second : List Bool} (short : first.length ≤ 63)
    (short' : second.length ≤ 63) :
    addParsed (BitVec.ofNat 64 (Bits.value first), first.length)
        (BitVec.ofNat 64 (Bits.value second), second.length) =
      accept (.ok (BitString.render (Bits.add first second))) := by
  have narrow : max first.length second.length ≤ 63 := Nat.max_le.mpr ⟨short, short'⟩
  have below := Bits.sum_lt first second
  have fits : Bits.value first + Bits.value second < 2 ^ 64 :=
    Nat.lt_of_lt_of_le below (Nat.pow_le_pow_right (by decide) (by omega))
  unfold addParsed
  dsimp only
  rw [add_ofNat fits, accept_ok_bind]
  by_cases empty : max first.length second.length = 0
  · obtain ⟨emptyFirst, emptySecond⟩ := Nat.max_eq_zero_iff.mp empty
    rw [if_pos empty, List.length_eq_zero_iff.mp emptyFirst, List.length_eq_zero_iff.mp emptySecond]
    rfl
  · have positive := Nat.pos_of_ne_zero empty
    have carries : BitVec.ofNat 64
        ((Bits.value first + Bits.value second) / 2 ^ max first.length second.length) = 0 ↔
          Bits.value first + Bits.value second < 2 ^ max first.length second.length := by
      rw [ofNat_eq_zero_iff (Nat.lt_of_le_of_lt (Nat.div_le_self _ _) fits),
        Nat.div_eq_zero_iff_lt (Nat.two_pow_pos _)]
    rw [if_neg empty, shiftRight_ofNat (by omega) fits, accept_ok_bind, Bits.add_eq, Bits.sumWidth]
    by_cases held : Bits.value first + Bits.value second < 2 ^ max first.length second.length
    · rw [if_pos (carries.mpr held), if_pos held, render_ofNat positive (by omega) held]
      rfl
    · rw [if_neg (mt carries.mp held), if_neg held,
        render_ofNat (Nat.succ_pos _) (by omega) below]
      rfl

theorem addStrings_eq (left right : String) :
    addStrings left right = accept (BitString.add left right) := by
  unfold addStrings BitString.add
  rcases parse_cases left with ⟨first, spells, parsed, read⟩ | ⟨fault, parsed, read⟩
  · rcases parse_cases right with ⟨second, spells', parsed', read'⟩ | ⟨fault, parsed', read'⟩
    · rw [read, read', parsed, parsed', accept_ok_bind, accept_ok_bind,
        addParsed_eq spells.short spells'.short]
      rfl
    · rw [read, read', parsed, parsed']
      rfl
  · rw [read, parsed]
    rfl

/-- Of all the digits of a flipped word the low ones are the flipped digits. -/
theorem not_and_mask {width number : Nat} (inside : width < 64) (fits : number < 2 ^ width) :
    ~~~BitVec.ofNat 64 number &&& BitVec.ofNat 64 (2 ^ width - 1) =
      BitVec.ofNat 64 (2 ^ width - 1 - number) := by
  have parts : 2 ^ 64 = 2 ^ width * 2 ^ (64 - width) := by
    rw [← Nat.pow_add, Nat.add_sub_cancel' (Nat.le_of_lt inside)]
  have above := Nat.two_pow_pos (64 - width)
  have bounded : 2 ^ width < 2 ^ 64 := Nat.pow_lt_pow_right (by decide) inside
  have flipped : 2 ^ 64 - 1 - number =
      2 ^ width * (2 ^ (64 - width) - 1) + (2 ^ width - 1 - number) := by
    rw [Nat.mul_sub, ← parts]
    omega
  have small : number < 2 ^ 64 := Nat.lt_trans fits bounded
  have rest : 2 ^ width - 1 - number < 2 ^ width := by omega
  rw [and_mask _ inside, BitVec.toNat_not, BitVec.toNat_ofNat, Nat.mod_eq_of_lt small, flipped,
    Nat.mul_add_mod, Nat.mod_eq_of_lt rest]

private theorem complementParsed_eq {list : List Bool} (short : list.length ≤ 63) :
    complementParsed (BitVec.ofNat 64 (Bits.value list), list.length) =
      accept (.ok (BitString.render (Bits.complement list))) := by
  unfold complementParsed
  by_cases empty : list.length = 0
  · rw [if_pos empty, List.length_eq_zero_iff.mp empty]
    rfl
  · have inside : list.length < 64 := by omega
    have below : 2 ^ list.length - 1 - Bits.value list < 2 ^ list.length := by
      have positive := Nat.two_pow_pos list.length
      omega
    have digits := (Bits.eq_ofNat_iff below).mpr
      ⟨Bits.length_complement list, Bits.value_complement list⟩
    rw [if_neg empty, mask_eq inside, accept_ok_bind, not_and_mask inside (Bits.value_lt list),
      render_ofNat (Nat.pos_of_ne_zero empty) (Nat.le_of_lt inside) below, ← digits]
    rfl

theorem complement_eq (text : String) : complement text = accept (BitString.complement text) := by
  unfold complement BitString.complement
  rcases parse_cases text with ⟨list, spells, parsed, read⟩ | ⟨fault, parsed, read⟩
  · rw [read, parsed, accept_ok_bind, complementParsed_eq spells.short]
    rfl
  · rw [read, parsed]
    rfl

/-- Flipping the digits and adding one are two steps, with a bit string in between. -/
theorem negate_eq (text : String) : negate text = accept (BitString.negate text) := by
  unfold negate
  rw [complement_eq, BitString.complement, BitString.negate]
  rcases parse_cases text with ⟨list, spells, parsed, -⟩ | ⟨fault, parsed, -⟩
  · have short : (Bits.complement list).length ≤ 63 := by
      rw [Bits.length_complement]
      exact spells.short
    have one : BitString.Spells "1" [true] := ⟨by decide, by decide⟩
    have sum : addStrings (BitString.render (Bits.complement list)) "1" =
        accept (.ok (BitString.render (Bits.negate list))) := by
      rw [addStrings_eq, BitString.add, (BitString.spells_render short).parse_eq, one.parse_eq]
      rfl
    rw [parsed]
    exact sum
  · rw [parsed]
    rfl

end LongWord

end MiniatureMachine
