import MiniatureMachine.Isa.Instruction

/-!
Contract: words as four groups of four bits, and decoding in their terms.

Owns:
- building a word from its nibbles and taking the nibbles out of it;
- the opcode table written in nibbles, and the operation of a word;
- which words decode to `halt` and to `call`.

Every mask of the opcode table keeps or drops whole nibbles, so a row selects a
word by comparing nibbles one by one. That turns the search through the table
into a case distinction on the first nibble.
-/

namespace MiniatureMachine.Word

variable (a b c d a' b' c' d' : BitVec 4)

/-- The word with the given groups of four bits, from the most significant one. -/
def ofNibbles (a b c d : BitVec 4) : Word :=
  (a ++ b) ++ (c ++ d)

theorem ofNibbles_extract (word : Word) :
    ofNibbles (word.extractLsb' 12 4) (word.extractLsb' 8 4) (word.extractLsb' 4 4)
      (word.extractLsb' 0 4) = word := by
  unfold ofNibbles
  rw [BitVec.extractLsb'_append_extractLsb'_eq_extractLsb' (show 12 = 8 + 4 from rfl),
    BitVec.extractLsb'_append_extractLsb'_eq_extractLsb' (show 4 = 0 + 4 from rfl)]
  exact (BitVec.extractLsb'_append_extractLsb'_eq_extractLsb' (show 8 = 0 + 8 from rfl)).trans
    BitVec.extractLsb'_eq_self

theorem exists_ofNibbles (word : Word) : ∃ a b c d, ofNibbles a b c d = word :=
  ⟨_, _, _, _, ofNibbles_extract word⟩

/-! ## Taking groups out -/

@[simp] theorem extract_first : (ofNibbles a b c d).extractLsb' 12 4 = a := by
  unfold ofNibbles
  rw [BitVec.extractLsb'_append_eq_of_le (by decide)]
  exact BitVec.extractLsb'_append_eq_left

@[simp] theorem extract_second : (ofNibbles a b c d).extractLsb' 8 4 = b := by
  unfold ofNibbles
  rw [BitVec.extractLsb'_append_eq_of_le (by decide)]
  exact BitVec.extractLsb'_append_eq_right

@[simp] theorem extract_third : (ofNibbles a b c d).extractLsb' 4 4 = c := by
  unfold ofNibbles
  rw [BitVec.extractLsb'_append_eq_of_add_le (by decide)]
  exact BitVec.extractLsb'_append_eq_left

@[simp] theorem extract_fourth : (ofNibbles a b c d).extractLsb' 0 4 = d := by
  unfold ofNibbles
  rw [BitVec.extractLsb'_append_eq_of_add_le (by decide)]
  exact BitVec.extractLsb'_append_eq_right

@[simp] theorem extract_byte : (ofNibbles a b c d).extractLsb' 0 8 = c ++ d :=
  BitVec.extractLsb'_append_eq_right

variable {a b c d a' b' c' d'} in
private theorem ofNibbles_inj :
    ofNibbles a b c d = ofNibbles a' b' c' d' ↔ a = a' ∧ b = b' ∧ c = c' ∧ d = d' := by
  constructor
  · intro equal
    refine ⟨?_, ?_, ?_, ?_⟩
    · simpa only [extract_first] using congrArg (BitVec.extractLsb' 12 4) equal
    · simpa only [extract_second] using congrArg (BitVec.extractLsb' 8 4) equal
    · simpa only [extract_third] using congrArg (BitVec.extractLsb' 4 4) equal
    · simpa only [extract_fourth] using congrArg (BitVec.extractLsb' 0 4) equal
  · rintro ⟨rfl, rfl, rfl, rfl⟩
    rfl

/-! ## Bitwise operations -/

private theorem ofNibbles_and :
    ofNibbles a b c d &&& ofNibbles a' b' c' d' =
      ofNibbles (a &&& a') (b &&& b') (c &&& c') (d &&& d') := by
  refine (BitVec.and_append (w := 4 + 4) (v := 4 + 4)).trans ?_
  rw [BitVec.and_append, BitVec.and_append]
  rfl

theorem ofNibbles_or :
    ofNibbles a b c d ||| ofNibbles a' b' c' d' =
      ofNibbles (a ||| a') (b ||| b') (c ||| c') (d ||| d') := by
  refine (BitVec.or_append (w := 4 + 4) (v := 4 + 4)).trans ?_
  rw [BitVec.or_append, BitVec.or_append]
  rfl

theorem nibble_or_zero : a ||| 0 = a := BitVec.or_zero

theorem zero_or_nibble : 0 ||| a = a := BitVec.zero_or

private theorem nibble_and_ones : a &&& 15 = a := BitVec.and_allOnes

private theorem nibble_and_zero : a &&& 0 = 0 := BitVec.and_zero

/-! ## The operation of a word -/

def operationOf (a b c d : BitVec 4) : Operation :=
  match a.toNat with
  | 0 =>
      if b = 0 ∧ c = 0 ∧ d = 0 then .halt
      else if c = 0 ∧ d = 1 then .read
      else if c = 0 ∧ d = 2 then .write
      else if c = 0 ∧ d = 3 then .jumpi
      else .data
  | 1 => .loadn
  | 2 => .load
  | 3 => .store
  | 4 => if d = 0 then .loadi else if d = 1 then .storei else .data
  | 5 => .addn
  | 6 => if d = 0 then (if b = 0 ∧ c = 0 then .nop else .mov) else .add
  | 7 => if c = 0 then .neg else .sub
  | 8 => .mul
  | 9 => .div
  | 10 => .mod
  | 11 => if b = 0 then .jump else .call
  | 12 => .jeqz
  | 13 => .jnez
  | 14 => .jgtz
  | _ => .jltz

private theorem opcodeTable_nibbles :
    opcodeTable =
      [⟨ofNibbles 0 0 0 0, ofNibbles 15 15 15 15, .halt⟩,
        ⟨ofNibbles 0 0 0 1, ofNibbles 15 0 15 15, .read⟩,
        ⟨ofNibbles 0 0 0 2, ofNibbles 15 0 15 15, .write⟩,
        ⟨ofNibbles 0 0 0 3, ofNibbles 15 0 15 15, .jumpi⟩,
        ⟨ofNibbles 1 0 0 0, ofNibbles 15 0 0 0, .loadn⟩,
        ⟨ofNibbles 2 0 0 0, ofNibbles 15 0 0 0, .load⟩,
        ⟨ofNibbles 3 0 0 0, ofNibbles 15 0 0 0, .store⟩,
        ⟨ofNibbles 4 0 0 0, ofNibbles 15 0 0 15, .loadi⟩,
        ⟨ofNibbles 4 0 0 1, ofNibbles 15 0 0 15, .storei⟩,
        ⟨ofNibbles 5 0 0 0, ofNibbles 15 0 0 0, .addn⟩,
        ⟨ofNibbles 6 0 0 0, ofNibbles 15 15 15 15, .nop⟩,
        ⟨ofNibbles 6 0 0 0, ofNibbles 15 0 0 15, .mov⟩,
        ⟨ofNibbles 6 0 0 0, ofNibbles 15 0 0 0, .add⟩,
        ⟨ofNibbles 7 0 0 0, ofNibbles 15 0 15 0, .neg⟩,
        ⟨ofNibbles 7 0 0 0, ofNibbles 15 0 0 0, .sub⟩,
        ⟨ofNibbles 8 0 0 0, ofNibbles 15 0 0 0, .mul⟩,
        ⟨ofNibbles 9 0 0 0, ofNibbles 15 0 0 0, .div⟩,
        ⟨ofNibbles 10 0 0 0, ofNibbles 15 0 0 0, .mod⟩,
        ⟨ofNibbles 11 0 0 0, ofNibbles 15 15 0 0, .jump⟩,
        ⟨ofNibbles 11 0 0 0, ofNibbles 15 0 0 0, .call⟩,
        ⟨ofNibbles 12 0 0 0, ofNibbles 15 0 0 0, .jeqz⟩,
        ⟨ofNibbles 13 0 0 0, ofNibbles 15 0 0 0, .jnez⟩,
        ⟨ofNibbles 14 0 0 0, ofNibbles 15 0 0 0, .jgtz⟩,
        ⟨ofNibbles 15 0 0 0, ofNibbles 15 0 0 0, .jltz⟩,
        ⟨ofNibbles 0 0 0 0, ofNibbles 0 0 0 0, .data⟩] := by
  decide

/-- A row selects a word when each of the word's nibbles, under the nibble of
the mask, is the nibble of the pattern. -/
theorem selects_ofNibbles (p q r s m n o t : BitVec 4) (operation : Operation) :
    (OpcodeRow.mk (ofNibbles p q r s) (ofNibbles m n o t) operation).selects
        (ofNibbles a b c d) =
      (a &&& m == p && (b &&& n == q && (c &&& o == r && d &&& t == s))) := by
  rw [Bool.eq_iff_iff]
  simp [OpcodeRow.selects, ofNibbles_and, ofNibbles_inj]

theorem nibble_cases :
    a = 0 ∨ a = 1 ∨ a = 2 ∨ a = 3 ∨ a = 4 ∨ a = 5 ∨ a = 6 ∨ a = 7 ∨ a = 8 ∨ a = 9 ∨
      a = 10 ∨ a = 11 ∨ a = 12 ∨ a = 13 ∨ a = 14 ∨ a = 15 := by
  revert a
  decide

/-- The first matching row of the table selects the operation that the nibbles
tell. -/
theorem classify_ofNibbles : classify (ofNibbles a b c d) = operationOf a b c d := by
  unfold classify
  rw [opcodeTable_nibbles]
  simp only [List.find?_cons, selects_ofNibbles, nibble_and_ones, nibble_and_zero]
  -- With a first nibble given, at most four rows are left, and they compare the others.
  rcases nibble_cases a with rfl | rfl | rfl | rfl | rfl | rfl | rfl | rfl | rfl | rfl |
    rfl | rfl | rfl | rfl | rfl | rfl <;> simp [operationOf] <;> grind

theorem decode_ofNibbles :
    Instruction.decode (ofNibbles a b c d) =
      ⟨operationOf a b c d,
        (ofNibbles a b c d).operands (operationOf a b c d).origin
          (operationOf a b c d).shape⟩ := by
  simp only [Instruction.decode, classify_ofNibbles]

/-! ## Words of single operations -/

variable {a b c d} in
private theorem operationOf_eq_halt (halts : operationOf a b c d = .halt) :
    a = 0 ∧ b = 0 ∧ c = 0 ∧ d = 0 := by
  rcases nibble_cases a with rfl | rfl | rfl | rfl | rfl | rfl | rfl | rfl | rfl | rfl |
    rfl | rfl | rfl | rfl | rfl | rfl <;> simp [operationOf] at halts <;> grind

variable {a b c d} in
private theorem operationOf_eq_call (calls : operationOf a b c d = .call) : a = 11 ∧ b ≠ 0 := by
  rcases nibble_cases a with rfl | rfl | rfl | rfl | rfl | rfl | rfl | rfl | rfl | rfl |
    rfl | rfl | rfl | rfl | rfl | rfl <;> simp [operationOf] at calls <;> grind

/-- The only word that halts the machine is zero. -/
theorem eq_zero_of_halt {word : Word}
    (halts : (Instruction.decode word).operation = .halt) : word = 0 := by
  obtain ⟨a, b, c, d, rfl⟩ := exists_ofNibbles word
  rw [decode_ofNibbles] at halts
  obtain ⟨rfl, rfl, rfl, rfl⟩ := operationOf_eq_halt halts
  rfl

/-- A word that decodes to a call names a link register other than register
zero: with register zero it decodes to a jump. -/
theorem call_link_ne_zero {word : Word}
    (calls : (Instruction.decode word).operation = .call) :
    ∃ link target, link ≠ 0 ∧
      Instruction.decode word = ⟨.call, [.register link, .unsigned target]⟩ := by
  obtain ⟨a, b, c, d, rfl⟩ := exists_ofNibbles word
  rw [decode_ofNibbles] at calls ⊢
  dsimp only at calls
  obtain ⟨-, linked⟩ := operationOf_eq_call calls
  refine ⟨b, c ++ d, linked, ?_⟩
  rw [calls]
  simp [Operation.origin, Operation.shape, Word.operands, Slot.operand?, Slot.width]

end MiniatureMachine.Word
