import Mathlib.Algebra.Ring.Int.Defs
import MiniatureMachine.Assembly.Encoding
import MiniatureMachine.Proofs.Numeral

/-!
Contract: what a token means in an operand slot.

Owns:
- the register or the number that a token names, read off its characters;
- the two shapes of tokens;
- what becomes of a token in a slot: its binary digits, or the reason for which it is
  refused.

Numbers are mathematical integers: a numeral may be as long as it likes, and only the range
of the slot limits it.
-/

namespace MiniatureMachine.Encoding

open Text (Numeral)

/-! ## Tokens -/

/-- The letter of a register and the numeral of its number, without needless zeros. -/
def NamesRegister (token : List Char) (number : Nat) : Prop :=
  ∃ letter, (letter = 'r' ∨ letter = 'R') ∧ token = letter :: (toString number).toList ∧
    number ≤ 15

/-- The integer that a token stands for: decimal digits, perhaps behind a minus sign, or
hexadecimal digits behind their mark. -/
inductive ShowsNumber : List Char → Int → Prop
  | decimal {digits : List Char} {magnitude : Nat} (numeral : Numeral 10 digits magnitude) :
      ShowsNumber digits magnitude
  | negative {digits : List Char} {magnitude : Nat} (numeral : Numeral 10 digits magnitude) :
      ShowsNumber ('-' :: digits) (-magnitude)
  | hexadecimal {mark : Char} {digits : List Char} {magnitude : Nat}
      (marked : mark = 'x' ∨ mark = 'X') (numeral : Numeral 16 digits magnitude) :
      ShowsNumber ('0' :: mark :: digits) magnitude

/-- The letter of a register and decimal digits. -/
def IsRegisterShaped (token : List Char) : Prop :=
  ∃ letter digits number, (letter = 'r' ∨ letter = 'R') ∧ token = letter :: digits ∧
    Numeral 10 digits number

def IsNumberShaped (token : List Char) : Prop :=
  token = ['-'] ∨ ∃ number, ShowsNumber token number

theorem NamesRegister.isRegisterShaped {token : List Char} {number : Nat}
    (names : NamesRegister token number) : IsRegisterShaped token := by
  obtain ⟨letter, isLetter, shown, -⟩ := names
  exact ⟨letter, _, number, isLetter, shown, Text.numeral_toString number⟩

/-! ## What the readers find -/

section Readers

variable {token : List Char} {number : Nat} {value : Int}

-- A decimal numeral has no letter and no sign in it, so of the readings of a token only the
-- last one is left.

theorem number?_of_showsNumber (shows : ShowsNumber token value) : number? token = some value := by
  cases shows with
  | @decimal digits magnitude numeral =>
      have decimal := Text.isDecimal_iff.mpr ⟨magnitude, numeral⟩
      unfold number? Text.signedDecimal?
      split
      case h_3 =>
        split
        · simp [Text.isDecimal] at decimal
        · rw [Text.numeral_ten_iff.mp numeral]
          rfl
      all_goals simp [Text.isDecimal] at decimal
  | negative numeral =>
      rw [number?, Text.signedDecimal?, Text.numeral_ten_iff.mp numeral]
      all_goals simp
  | hexadecimal marked numeral =>
      have read := (Text.numeral_sixteen_iff.mp numeral).2
      rcases marked with rfl | rfl <;> simp [number?, read]

/-- A token shows one number at most. -/
theorem ShowsNumber.unique {other : Int} (shows : ShowsNumber token value)
    (showsOther : ShowsNumber token other) : value = other := by
  have read := number?_of_showsNumber shows
  rw [number?_of_showsNumber showsOther] at read
  exact (Option.some.inj read).symm

theorem isRegisterOrNumber_of_showsNumber (shows : ShowsNumber token value) :
    isRegisterOrNumber token = true := by
  cases shows with
  | @decimal digits magnitude numeral =>
      have decimal := Text.isDecimal_iff.mpr ⟨magnitude, numeral⟩
      unfold isRegisterOrNumber
      split
      case h_7 => exact decimal
      all_goals simp [Text.isDecimal] at decimal
  | @negative digits magnitude numeral =>
      have decimal := Text.isDecimal_iff.mpr ⟨magnitude, numeral⟩
      obtain ⟨c, rest, rfl⟩ := List.exists_cons_of_ne_nil numeral.ne_nil
      exact decimal
  | hexadecimal marked numeral =>
      have known := (Text.numeral_sixteen_iff.mp numeral).1
      rcases marked with rfl | rfl <;> simpa [isRegisterOrNumber] using known

private theorem startsAsRegister_of_showsNumber (shows : ShowsNumber token value) :
    startsAsRegister token = false := by
  cases shows with
  | @decimal digits magnitude numeral =>
      have decimal := Text.isDecimal_iff.mpr ⟨magnitude, numeral⟩
      rw [Bool.eq_false_iff]
      intro starts
      obtain ⟨c, rest, rfl⟩ := List.exists_cons_of_ne_nil numeral.ne_nil
      simp only [startsAsRegister, List.head?_cons, Bool.or_eq_true, beq_iff_eq,
        Option.some.injEq] at starts
      rcases starts with rfl | rfl <;> simp [Text.isDecimal] at decimal
  | negative | hexadecimal => rfl

private theorem startsAsRegister_of_isRegisterShaped (shaped : IsRegisterShaped token) :
    startsAsRegister token = true := by
  obtain ⟨letter, digits, -, isLetter, rfl, -⟩ := shaped
  rcases isLetter with rfl | rfl <;> rfl

private theorem isRegisterOrNumber_iff :
    isRegisterOrNumber token = true ↔ IsRegisterShaped token ∨ IsNumberShaped token := by
  constructor
  · intro formed
    unfold isRegisterOrNumber at formed
    split at formed
    case h_1 digits =>
      obtain ⟨number, numeral⟩ := Text.isDecimal_iff.mp formed
      exact .inl ⟨'r', digits, number, .inl rfl, rfl, numeral⟩
    case h_2 digits =>
      obtain ⟨number, numeral⟩ := Text.isDecimal_iff.mp formed
      exact .inl ⟨'R', digits, number, .inr rfl, rfl, numeral⟩
    case h_3 => exact .inr (.inl rfl)
    case h_4 digits =>
      have numeral := Text.numeral_sixteen_iff.mpr ⟨by simpa using formed, rfl⟩
      exact .inr (.inr ⟨_, .hexadecimal (.inl rfl) numeral⟩)
    case h_5 digits =>
      have numeral := Text.numeral_sixteen_iff.mpr ⟨by simpa using formed, rfl⟩
      exact .inr (.inr ⟨_, .hexadecimal (.inr rfl) numeral⟩)
    case h_6 =>
      obtain ⟨magnitude, numeral⟩ := Text.isDecimal_iff.mp formed
      exact .inr (.inr ⟨_, .negative numeral⟩)
    case h_7 =>
      obtain ⟨magnitude, numeral⟩ := Text.isDecimal_iff.mp formed
      exact .inr (.inr ⟨_, .decimal numeral⟩)
  · rintro (⟨letter, digits, number, isLetter, rfl, numeral⟩ | rfl | ⟨value, shows⟩)
    · have decimal := Text.isDecimal_iff.mpr ⟨number, numeral⟩
      rcases isLetter with rfl | rfl <;> exact decimal
    · rfl
    · exact isRegisterOrNumber_of_showsNumber shows

/-- The check for needless zeros leaves the printed numerals. -/
theorem registerDigits_iff {digits : List Char} :
    (if digits.length > 1 && digits.head? == some '0' then none
      else (Text.decimal? digits).filter (· < 16)) = some number ↔
      digits = (toString number).toList ∧ number ≤ 15 := by
  simp only [gt_iff_lt, Bool.and_eq_true, decide_eq_true_eq, beq_iff_eq,
    Option.ite_none_left_eq_some, Option.filter_eq_some_iff, ← Text.numeral_ten_iff]
  constructor
  · rintro ⟨canonical, numeral, below⟩
    exact ⟨numeral.eq_toString_iff.mpr canonical, by omega⟩
  · rintro ⟨rfl, below⟩
    have numeral := Text.numeral_toString number
    exact ⟨numeral.eq_toString_iff.mp rfl, numeral, by omega⟩

private theorem namesRegister_cons_iff {letter : Char} {digits : List Char} :
    NamesRegister (letter :: digits) number ↔
      (letter = 'r' ∨ letter = 'R') ∧ digits = (toString number).toList ∧ number ≤ 15 := by
  constructor
  · rintro ⟨letter, isLetter, ⟨⟩, below⟩
    exact ⟨isLetter, rfl, below⟩
  · rintro ⟨isLetter, rfl, below⟩
    exact ⟨letter, isLetter, rfl, below⟩

theorem register?_eq_some_iff : register? token = some number ↔ NamesRegister token number := by
  unfold register?
  split
  · rw [registerDigits_iff, namesRegister_cons_iff]
    simp
  · rw [registerDigits_iff, namesRegister_cons_iff]
    simp
  · rename_i notLower notUpper
    refine iff_of_false nofun ?_
    rintro ⟨letter, rfl | rfl, rfl, -⟩
    · exact notLower _ rfl
    · exact notUpper _ rfl

theorem NamesRegister.unique {other : Nat} (names : NamesRegister token number)
    (namesOther : NamesRegister token other) : number = other := by
  have read := register?_eq_some_iff.mpr names
  rw [register?_eq_some_iff.mpr namesOther] at read
  exact (Option.some.inj read).symm

end Readers

/-! ## What becomes of a token -/

/-- What becomes of a token in a slot. A number that is accepted has the binary digits of
what it is modulo the capacity of the slot. A lone minus sign is good enough as a number
until its value is needed. -/
inductive Outcome (slot : Slot) (token : String) : Except LineError String → Prop
  | register {number : Nat} {digits : String} (isRegister : slot = .register)
      (names : NamesRegister token.toList number) (wide : digits.toList.length = 4)
      (binary : Numeral 2 digits.toList number) :
      Outcome slot token (.ok digits)
  | number {value : Int} {range : Int × Int} {residue : Nat} {digits : String}
      (ranged : slot.range? = some range) (shows : ShowsNumber token.toList value)
      (inRange : range.1 ≤ value ∧ value ≤ range.2) (wide : digits.toList.length = slot.width)
      (binary : Numeral 2 digits.toList residue)
      (wraps : (residue : Int) = value % 2 ^ slot.width) :
      Outcome slot token (.ok digits)
  | empty (isEmpty : token = "") : Outcome slot token (.error (.operand .empty))
  | unshaped (present : token ≠ "") (noRegister : ¬IsRegisterShaped token.toList)
      (noNumber : ¬IsNumberShaped token.toList) :
      Outcome slot token (.error (.operand (.neitherRegisterNorNumber token)))
  | loneMinus (notRegister : slot ≠ .register) (isMinus : token = "-") :
      Outcome slot token (.error (.operand (.neitherRegisterNorNumber token)))
  | wrongRegister (isRegister : slot = .register)
      (shaped : IsRegisterShaped token.toList ∨ IsNumberShaped token.toList)
      (noRegister : ∀ number, ¬NamesRegister token.toList number) :
      Outcome slot token (.error (.register token))
  | notANumber (notRegister : slot ≠ .register) (shaped : IsRegisterShaped token.toList) :
      Outcome slot token (.error (.operand (.notANumber token)))
  | outOfRange {value : Int} {range : Int × Int} (ranged : slot.range? = some range)
      (shows : ShowsNumber token.toList value)
      (outside : ¬(range.1 ≤ value ∧ value ≤ range.2)) :
      Outcome slot token (.error (.operand (.outOfRange token)))

/-- The binary numeral that the outcome asks for is the text that the assembler writes. -/
theorem numeral_ofInt_iff {slot : Slot} {value : Int} {residue : Nat} {digits : String}
    (wraps : (residue : Int) = value % 2 ^ slot.width) :
    digits.toList.length = slot.width ∧ Numeral 2 digits.toList residue ↔
      digits = BitString.render (Bits.ofInt slot.width value) := by
  have positive : 0 < slot.width := by cases slot <;> decide
  have capacity : ((2 ^ slot.width : Nat) : Int) = 2 ^ slot.width := Int.natCast_pow 2 slot.width
  have written : (value % (Bits.capacity slot.width : Int)).toNat = residue := by
    rw [Bits.capacity_eq, capacity, ← wraps, Int.toNat_natCast]
  have fits : residue < 2 ^ slot.width := by
    have below := Int.emod_lt_of_pos value (b := ((2 ^ slot.width : Nat) : Int))
      (by exact_mod_cast Nat.two_pow_pos slot.width)
    rw [capacity, ← wraps, ← capacity] at below
    exact_mod_cast below
  rw [Bits.ofInt, written]
  exact Text.numeral_ofNat_iff positive fits

section Outcome

variable {slot : Slot} {token : String}

/-- A token with one of the shapes is not empty, and the slot decides how it is read. -/
theorem ofToken_of_shaped (shaped : IsRegisterShaped token.toList ∨ IsNumberShaped token.toList) :
    ofToken slot token = if slot = .register then ofRegister token else ofNumber slot token := by
  have formed := isRegisterOrNumber_iff.mpr shaped
  have present : ¬token.isEmpty = true := by
    rw [String.isEmpty_iff]
    rintro rfl
    cases formed
  rw [ofToken, if_neg present, formed]
  rfl

private theorem ofToken_of_unshaped (present : token ≠ "")
    (noRegister : ¬IsRegisterShaped token.toList)
    (noNumber : ¬IsNumberShaped token.toList) :
    ofToken slot token = .error (.operand (.neitherRegisterNorNumber token)) := by
  have foreign : isRegisterOrNumber token.toList = false := by
    rw [← Bool.not_eq_true, isRegisterOrNumber_iff]
    exact not_or_intro noRegister noNumber
  have notEmpty : ¬token.isEmpty = true := by
    rwa [String.isEmpty_iff]
  rw [ofToken, if_neg notEmpty, foreign]
  rfl

private theorem ofNumber_of_showsNumber {value : Int} {range : Int × Int}
    (ranged : slot.range? = some range) (shows : ShowsNumber token.toList value) :
    ofNumber slot token =
      if range.1 ≤ value ∧ value ≤ range.2 then
        .ok (BitString.render (Bits.ofInt slot.width value))
      else
        .error (.operand (.outOfRange token)) := by
  simp only [ofNumber, startsAsRegister_of_showsNumber shows, number?_of_showsNumber shows, ranged,
    Bool.false_eq_true, if_false]

theorem ne_register_of_range {range : Int × Int} (ranged : slot.range? = some range) :
    slot ≠ .register := by
  rintro rfl
  cases ranged

/-- A number is accepted exactly in the range of its slot. -/
theorem ofToken_of_showsNumber {value : Int} {range : Int × Int}
    (ranged : slot.range? = some range) (shows : ShowsNumber token.toList value) :
    ofToken slot token =
      if range.1 ≤ value ∧ value ≤ range.2 then
        .ok (BitString.render (Bits.ofInt slot.width value))
      else
        .error (.operand (.outOfRange token)) := by
  have shaped : IsNumberShaped token.toList := .inr ⟨value, shows⟩
  rw [ofToken_of_shaped (.inr shaped), if_neg (ne_register_of_range ranged),
    ofNumber_of_showsNumber ranged shows]

private theorem ofNumber_of_isRegisterShaped (shaped : IsRegisterShaped token.toList) :
    ofNumber slot token = .error (.operand (.notANumber token)) := by
  rw [ofNumber, if_pos (startsAsRegister_of_isRegisterShaped shaped)]

private theorem isNumberShaped_minus : IsNumberShaped "-".toList := .inl rfl

theorem NamesRegister.numeral_ofNat_iff {number : Nat} {digits : String}
    (names : NamesRegister token.toList number) :
    digits.toList.length = 4 ∧ Numeral 2 digits.toList number ↔
      digits = BitString.render (Bits.ofNat 4 number) := by
  obtain ⟨letter, isLetter, shown, below⟩ := names
  exact Text.numeral_ofNat_iff (by decide) (by omega)

theorem ofRegister_of_namesRegister {number : Nat} (names : NamesRegister token.toList number) :
    ofRegister token = .ok (BitString.render (Bits.ofNat 4 number)) := by
  rw [ofRegister, register?_eq_some_iff.mpr names]

private theorem ofRegister_of_nameless (noRegister : ∀ number, ¬NamesRegister token.toList number) :
    ofRegister token = .error (.register token) := by
  unfold ofRegister
  split
  · rename_i number read
    exact absurd (register?_eq_some_iff.mp read) (noRegister number)
  · rfl

private theorem exists_range_of_numeric (numeric : slot ≠ .register) (takes : slot ≠ .filler) :
    ∃ range, slot.range? = some range := by
  cases slot with
  | register => exact absurd rfl numeric
  | filler => exact absurd rfl takes
  | signedByte | unsignedByte | word => exact ⟨_, rfl⟩

/-- Every token has an outcome. -/
theorem outcome_ofToken (takes : slot ≠ .filler) : Outcome slot token (ofToken slot token) := by
  by_cases isEmpty : token = ""
  · subst isEmpty
    exact .empty rfl
  by_cases shaped : IsRegisterShaped token.toList ∨ IsNumberShaped token.toList
  · rw [ofToken_of_shaped shaped]
    by_cases isRegister : slot = .register
    · rw [if_pos isRegister]
      by_cases named : ∃ number, NamesRegister token.toList number
      · obtain ⟨number, names⟩ := named
        have binary := names.numeral_ofNat_iff.mpr rfl
        rw [ofRegister_of_namesRegister names]
        exact .register isRegister names binary.1 binary.2
      · have noRegister := not_exists.mp named
        rw [ofRegister_of_nameless noRegister]
        exact .wrongRegister isRegister shaped noRegister
    · rw [if_neg isRegister]
      obtain ⟨range, ranged⟩ := exists_range_of_numeric isRegister takes
      rcases shaped with isRegisterShaped | isMinus | ⟨value, shows⟩
      · rw [ofNumber_of_isRegisterShaped isRegisterShaped]
        exact .notANumber isRegister isRegisterShaped
      · obtain rfl : token = "-" := String.toList_injective isMinus
        exact .loneMinus isRegister rfl
      · rw [ofNumber_of_showsNumber ranged shows]
        split
        · rename_i inRange
          have nonnegative := Int.emod_nonneg value
            (show (2 : Int) ^ slot.width ≠ 0 from Int.pow_ne_zero (by decide))
          have wraps := Int.toNat_of_nonneg nonnegative
          have binary := (numeral_ofInt_iff wraps).mpr rfl
          exact .number ranged shows inRange binary.1 binary.2 wraps
        · rename_i outside
          exact .outOfRange ranged shows outside
  · obtain ⟨noRegister, noNumber⟩ := not_or.mp shaped
    rw [ofToken_of_unshaped isEmpty noRegister noNumber]
    exact .unshaped isEmpty noRegister noNumber

/-- A token has one outcome. -/
theorem Outcome.ofToken_eq {result : Except LineError String}
    (outcome : Outcome slot token result) : ofToken slot token = result := by
  cases outcome with
  | register isRegister names wide binary =>
      rw [ofToken_of_shaped (.inl names.isRegisterShaped), if_pos isRegister,
        ofRegister_of_namesRegister names, names.numeral_ofNat_iff.mp ⟨wide, binary⟩]
  | number ranged shows inRange wide binary wraps =>
      rw [ofToken_of_showsNumber ranged shows, if_pos inRange,
        (numeral_ofInt_iff wraps).mp ⟨wide, binary⟩]
  | empty isEmpty =>
      subst isEmpty
      rfl
  | unshaped present noRegister noNumber => exact ofToken_of_unshaped present noRegister noNumber
  | loneMinus notRegister isMinus =>
      subst isMinus
      rw [ofToken_of_shaped (.inr isNumberShaped_minus), if_neg notRegister]
      rfl
  | wrongRegister isRegister shaped noRegister =>
      rw [ofToken_of_shaped shaped, if_pos isRegister, ofRegister_of_nameless noRegister]
  | notANumber notRegister shaped =>
      rw [ofToken_of_shaped (.inl shaped), if_neg notRegister,
        ofNumber_of_isRegisterShaped shaped]
  | outOfRange ranged shows outside =>
      rw [ofToken_of_showsNumber ranged shows, if_neg outside]

/-- What the assembler makes of a token is its outcome, and it has no other. -/
theorem ofToken_eq_iff_outcome {result : Except LineError String} (takes : slot ≠ .filler) :
    ofToken slot token = result ↔ Outcome slot token result := by
  constructor
  · rintro rfl
    exact outcome_ofToken takes
  · exact Outcome.ofToken_eq

/-- A long numeral of the smallest word, a number that only an unsigned byte holds, and a
register with a needless zero. -/
theorem oddTokens_outcome :
    Outcome .word "-00000000000000000000032768" (.ok "1000000000000000") ∧
      Outcome .unsignedByte "0X00fF" (.ok "11111111") ∧
      Outcome .signedByte "0X00fF" (.error (.operand (.outOfRange "0X00fF"))) ∧
      Outcome .register "R01" (.error (.register "R01")) :=
  ⟨(ofToken_eq_iff_outcome (by decide)).mp (by decide +kernel),
    (ofToken_eq_iff_outcome (by decide)).mp (by decide +kernel),
    (ofToken_eq_iff_outcome (by decide)).mp (by decide +kernel),
    (ofToken_eq_iff_outcome (by decide)).mp (by decide +kernel)⟩

end Outcome

end MiniatureMachine.Encoding
