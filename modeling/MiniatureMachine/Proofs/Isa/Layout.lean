import MiniatureMachine.Assembly.Encoding
import MiniatureMachine.Image
import MiniatureMachine.Proofs.Bits
import MiniatureMachine.Proofs.Isa.Nibbles

/-!
Contract: words as lines of binary digits.

Owns:
- the digits of a word, which its layout holds in four groups;
- reading a layout back as its word;
- what filling digits into a layout makes of the word.

The digits that are filled in come in whole groups of four, so a filled template is the
union of two words, nibble by nibble.
-/

namespace MiniatureMachine

namespace Bits

theorem ofNat_sixteen (number : Nat) :
    ofNat 16 number = ofNat 4 (number >>> 12) ++ (ofNat 4 (number >>> 8) ++
      (ofNat 4 (number >>> 4) ++ ofNat 4 (number >>> 0))) :=
  (ofNat_add 4 12 number).trans <| congrArg _ <|
    (ofNat_add 4 8 number).trans <| congrArg _ <| ofNat_add 4 4 number

end Bits

/-! ## The layout of a word -/

namespace BitString

@[simp] theorem digitChar_ne_space (digit : Bool) : digitChar digit ≠ ' ' := by
  cases digit <;> decide

@[simp] theorem digitChar_eq_one (digit : Bool) : (digitChar digit == '1') = digit := by
  cases digit <;> rfl

theorem filter_digitChar (digits : List Bool) :
    (digits.map digitChar).filter (· != ' ') = digits.map digitChar := by
  refine List.filter_eq_self.mpr fun c member => ?_
  obtain ⟨digit, -, rfl⟩ := List.mem_map.mp member
  cases digit <;> rfl

end BitString

namespace Word

def nibbleText (nibble : BitVec 4) : List Char :=
  (Bits.ofNat 4 nibble.toNat).map BitString.digitChar

theorem nibbleText_extract {width : Nat} (bits : BitVec width) (offset : Nat) :
    nibbleText (bits.extractLsb' offset 4) =
      (Bits.ofNat 4 (bits.toNat >>> offset)).map BitString.digitChar := by
  unfold nibbleText
  rw [BitVec.extractLsb'_toNat, Bits.ofNat_mod]

theorem toList_layout (word : Word) :
    word.layout.toList =
      nibbleText (word.extractLsb' 12 4) ++ ' ' :: (nibbleText (word.extractLsb' 8 4) ++ ' ' ::
        (nibbleText (word.extractLsb' 4 4) ++ ' ' :: nibbleText (word.extractLsb' 0 4))) := by
  simp only [nibbleText_extract, layout, groups, List.map_cons, List.map_nil,
    String.intercalate_cons_cons, String.intercalate_singleton, String.toList_append,
    BitString.render, String.toList_ofList, List.append_assoc]
  rfl

theorem length_layout (word : Word) : word.layout.length = 19 := by
  rw [← String.length_toList, toList_layout]
  simp [nibbleText]

/-- A layout ends in a digit. -/
theorem solid_layout (word : Word) :
    ∀ c ∈ word.layout.toList.getLast?, Text.isBlank c = false := by
  intro c last
  have digit : c ∈ (nibbleText (word.extractLsb' 0 4)).getLast? := by
    rw [toList_layout] at last
    simpa [nibbleText, Bits.ofNat] using last
  obtain ⟨bit, -, rfl⟩ := List.mem_map.mp (List.mem_of_mem_getLast? digit)
  cases bit <;> decide

private theorem toList_layout_ofNibbles (a b c d : BitVec 4) :
    (ofNibbles a b c d).layout.toList =
      nibbleText a ++ ' ' :: (nibbleText b ++ ' ' :: (nibbleText c ++ ' ' :: nibbleText d)) := by
  rw [toList_layout, extract_first, extract_second, extract_third, extract_fourth]

private theorem filter_layout (word : Word) :
    word.layout.toList.filter (· != ' ') =
      (Bits.ofNat 16 word.toNat).map BitString.digitChar := by
  have spaced : ∀ (digits : List Bool) (rest : List Char),
      (digits.map BitString.digitChar ++ ' ' :: rest).filter (· != ' ') =
        digits.map BitString.digitChar ++ rest.filter (· != ' ') := by
    intro digits rest
    rw [List.filter_append, BitString.filter_digitChar]
    rfl
  rw [toList_layout, Bits.ofNat_sixteen]
  simp only [nibbleText_extract, spaced, BitString.filter_digitChar, List.map_append]

/-- A line with the sixteen digits of a word, wherever it has spaces, holds the word. -/
theorem wordOfLine?_of_filter {word : Word} {line : List Char}
    (digits : line.filter (· != ' ') = (Bits.ofNat 16 word.toNat).map BitString.digitChar) :
    Image.wordOfLine? line = some word := by
  have read : ((Bits.ofNat 16 word.toNat).map BitString.digitChar).map (· == '1') =
      Bits.ofNat 16 word.toNat := by
    rw [List.map_map]
    exact (List.map_congr_left fun digit _ => BitString.digitChar_eq_one digit).trans
      (List.map_id _)
  unfold Image.wordOfLine?
  rw [digits, read]
  simp only [Bits.length_ofNat, if_true, Bits.value_ofNat]
  rw [Nat.mod_eq_of_lt word.isLt, BitVec.ofNat_toNat, BitVec.setWidth_eq]

theorem wordOfLine?_layout (word : Word) :
    Image.wordOfLine? word.layout.toList = some word :=
  wordOfLine?_of_filter (filter_layout word)

theorem layout_injective : Function.Injective layout := by
  intro word other same
  apply Option.some.inj
  rw [← wordOfLine?_layout word, same, wordOfLine?_layout]

/-- The word that begins with the given nibbles. Its other nibbles are zero. -/
def ofLeading (nibbles : List (BitVec 4)) : Word :=
  ofNibbles (nibbles.getD 0 0) (nibbles.getD 1 0) (nibbles.getD 2 0) (nibbles.getD 3 0)

private theorem filter_nibbleTexts (nibbles : List (BitVec 4)) :
    (nibbles.flatMap nibbleText).filter (· != ' ') = nibbles.flatMap nibbleText := by
  induction nibbles with
  | nil => rfl
  | cons nibble nibbles inductionHypothesis =>
      rw [List.flatMap_cons, List.filter_append, inductionHypothesis]
      exact congrArg (· ++ _) (BitString.filter_digitChar _)

end Word

/-! ## Filling a layout -/

namespace Encoding

open Word

private theorem fill_digit (place digit : Bool) (template digits : List Char) :
    fill (BitString.digitChar place :: template) (BitString.digitChar digit :: digits) =
      BitString.digitChar (place || digit) :: fill template digits := by
  cases place <;> cases digit <;> rfl

private theorem fill_space (template digits : List Char) :
    fill (' ' :: template) digits = ' ' :: fill template digits :=
  rfl

private theorem fill_nil (template : List Char) : fill template [] = template := by
  induction template with
  | nil => rfl
  | cons place template inductionHypothesis =>
      unfold fill
      split
      · rename_i space
        rw [inductionHypothesis, space]
      · rw [inductionHypothesis]

/-- Nibble by nibble, the template and the digits are united. -/
theorem fill_nibble (place nibble : BitVec 4) (template digits : List Char) :
    fill (nibbleText place ++ template) (nibbleText nibble ++ digits) =
      nibbleText (place ||| nibble) ++ fill template digits := by
  simp only [nibbleText, Bits.ofNat, List.map_cons, List.map_nil, List.cons_append,
    List.nil_append, fill_digit, BitVec.toNat_or, Nat.testBit_or]

private theorem fill_last_nibble (place nibble : BitVec 4) (digits : List Char) :
    fill (nibbleText place) (nibbleText nibble ++ digits) = nibbleText (place ||| nibble) := by
  have filled := fill_nibble place nibble [] digits
  rw [List.append_nil] at filled
  exact filled.trans (List.append_nil _)

/-- Digits that come in nibbles turn the layout of a pattern into the layout of a
word. -/
theorem insert_layout (pattern : Word) {nibbles : List (BitVec 4)} (short : nibbles.length ≤ 4) :
    insert pattern.layout (String.ofList (nibbles.flatMap nibbleText)) =
      (pattern ||| ofLeading nibbles).layout := by
  obtain ⟨a, b, c, d, rfl⟩ := exists_ofNibbles pattern
  have texts : fill (ofNibbles a b c d).layout.toList (nibbles.flatMap nibbleText) =
      (ofNibbles a b c d ||| ofLeading nibbles).layout.toList := by
    rw [ofLeading, ofNibbles_or, toList_layout_ofNibbles, toList_layout_ofNibbles]
    rcases nibbles with _ | ⟨w, _ | ⟨x, _ | ⟨y, _ | ⟨z, _ | ⟨v, nibbles⟩⟩⟩⟩⟩
    case cons.cons.cons.cons.cons =>
      simp only [List.length_cons] at short
      omega
    all_goals
      simp only [List.flatMap_nil, List.flatMap_cons, List.getD_nil, List.getD_cons_zero,
        List.getD_cons_succ, fill_nil, fill_nibble, fill_last_nibble, fill_space,
        Word.nibble_or_zero]
  unfold insert
  rw [String.toList_ofList, filter_nibbleTexts, texts, String.ofList_toList]

end Encoding

end MiniatureMachine
