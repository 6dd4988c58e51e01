import Mathlib.Data.List.Basic
import MiniatureMachine.Proofs.ImageText

/-!
Contract: the texts that read as given words.

Owns:
- lines of digits with spaces in them, and texts of such lines with blank lines between them;
- that these are exactly the texts that read as well-formed words;
- the rewriting of an image text to the layout of its words.

The reader looks at a text three times: for foreign characters, for lines with a digit, and
for the digits of a line. Spaces and blank lines are passed over each time for another
reason, so the relation below is about digits and lines only.
-/

namespace MiniatureMachine

def Word.digits (word : Word) : List Char :=
  (Bits.ofNat 16 word.toNat).map BitString.digitChar

namespace Image

/-! ## Spaced lines -/

/-- A line that has these characters in their order, and spaces anywhere before, between and
behind them. -/
inductive Spaced : (digits line : List Char) → Prop
  | nil : Spaced [] []
  | space {digits line : List Char} (spaced : Spaced digits line) : Spaced digits (' ' :: line)
  | digit (c : Char) {digits line : List Char} (spaced : Spaced digits line) :
      Spaced (c :: digits) (c :: line)

/-- Lines that hold words in their order, and blank lines anywhere before, between and behind
them. -/
inductive Holds : List Word → List (List Char) → Prop
  | nil : Holds [] []
  | blank {words : List Word} {line : List Char} {lines : List (List Char)}
      (spaced : Spaced [] line) (holds : Holds words lines) : Holds words (line :: lines)
  | word {word : Word} {words : List Word} {line : List Char} {lines : List (List Char)}
      (spaced : Spaced word.digits line) (holds : Holds words lines) :
      Holds (word :: words) (line :: lines)

/-- A text that lays words out: lines that hold them, with a newline behind each line, or
behind each line but the last. -/
inductive LaysOut (words : List Word) (text : String) : Prop
  | closed (lines : List (List Char)) (holds : Holds words lines)
      (made : text.toList = lines.flatMap (· ++ ['\n']))
  | unclosed (lines : List (List Char)) (holds : Holds words lines)
      (made : text.toList ++ ['\n'] = lines.flatMap (· ++ ['\n']))

variable {word : Word} {words : List Word} {line digits : List Char} {lines : List (List Char)}
  {text : String}

private theorem isImageChar_of_mem_digits {c : Char} (member : c ∈ word.digits) :
    isImageChar c = true ∧ c ≠ ' ' := by
  obtain ⟨digit, -, rfl⟩ := List.mem_map.mp member
  exact ⟨isImageChar_digitChar digit, BitString.digitChar_ne_space digit⟩

private theorem spaced_filter (line : List Char) : Spaced (line.filter (· != ' ')) line := by
  induction line with
  | nil => exact .nil
  | cons c line inductionHypothesis =>
      by_cases space : c = ' '
      · subst space
        exact .space inductionHypothesis
      · rw [List.filter_cons_of_pos (by simpa using space)]
        exact .digit c inductionHypothesis

theorem spaced_of_filter_eq (solid : line.filter (· != ' ') = digits) : Spaced digits line :=
  solid ▸ spaced_filter line

private theorem Spaced.filter_eq (spaced : Spaced digits line) (solid : ∀ c ∈ digits, c ≠ ' ') :
    line.filter (· != ' ') = digits := by
  induction spaced with
  | nil => rfl
  | space _ inductionHypothesis => exact inductionHypothesis solid
  | digit c _ inductionHypothesis =>
      obtain ⟨first, others⟩ := List.forall_mem_cons.mp solid
      rw [List.filter_cons_of_pos (by simpa using first), inductionHypothesis others]

theorem Spaced.isImageChar (spaced : Spaced digits line)
    (known : ∀ c ∈ digits, Image.isImageChar c = true) :
    ∀ c ∈ line, Image.isImageChar c = true := by
  induction spaced with
  | nil => exact known
  | space _ inductionHypothesis =>
      exact List.forall_mem_cons.mpr ⟨rfl, inductionHypothesis known⟩
  | digit c _ inductionHypothesis =>
      obtain ⟨first, others⟩ := List.forall_mem_cons.mp known
      exact List.forall_mem_cons.mpr ⟨first, inductionHypothesis others⟩

private theorem filter_of_spaced_digits (spaced : Spaced word.digits line) :
    line.filter (· != ' ') = word.digits :=
  spaced.filter_eq fun _ member => (isImageChar_of_mem_digits member).2

private theorem any_eq_false_of_spaced (spaced : Spaced [] line) : line.any (· != ' ') = false := by
  have blank := List.filter_eq_nil_iff.mp (spaced.filter_eq nofun)
  exact List.any_eq_false.mpr blank

private theorem any_eq_true_of_spaced (spaced : Spaced word.digits line) :
    line.any (· != ' ') = true := by
  have present : line.filter (· != ' ') ≠ [] := by
    rw [filter_of_spaced_digits spaced]
    simp [Word.digits, Bits.ofNat]
  obtain ⟨c, member⟩ := List.exists_mem_of_ne_nil _ present
  obtain ⟨inLine, solid⟩ := List.mem_filter.mp member
  exact List.any_eq_true.mpr ⟨c, inLine, solid⟩

/-! ## Reading lines -/

/-- What the reader makes of lines: the words of those that have a digit. -/
def wordsOfLines (lines : List (List Char)) : List (Option Word) :=
  (lines.filter fun line => line.any (· != ' ')).map wordOfLine?

theorem wordsOfLines_cons (line : List Char) (lines : List (List Char)) :
    wordsOfLines (line :: lines) =
      if line.any (· != ' ') = true then wordOfLine? line :: wordsOfLines lines
      else wordsOfLines lines := by
  unfold wordsOfLines
  rw [List.filter_cons]
  split <;> rfl

private theorem Holds.wordsOfLines_eq (holds : Holds words lines) :
    wordsOfLines lines = words.map some := by
  induction holds with
  | nil => rfl
  | blank spaced _ inductionHypothesis =>
      rw [wordsOfLines_cons, any_eq_false_of_spaced spaced, if_neg Bool.false_ne_true,
        inductionHypothesis]
  | word spaced _ inductionHypothesis =>
      rw [wordsOfLines_cons, if_pos (any_eq_true_of_spaced spaced), inductionHypothesis,
        Word.wordOfLine?_of_filter (filter_of_spaced_digits spaced), List.map_cons]

theorem Holds.isImageChar (holds : Holds words lines) :
    ∀ line ∈ lines, ∀ c ∈ line, Image.isImageChar c = true := by
  induction holds with
  | nil => exact nofun
  | blank spaced _ inductionHypothesis =>
      exact List.forall_mem_cons.mpr ⟨spaced.isImageChar nofun, inductionHypothesis⟩
  | word spaced _ inductionHypothesis =>
      refine List.forall_mem_cons.mpr ⟨spaced.isImageChar fun c member => ?_, inductionHypothesis⟩
      exact (isImageChar_of_mem_digits member).1

/-- Of the characters of an image, those that are no space are binary digits. -/
theorem filter_eq_digits (known : ∀ c ∈ line, isImageChar c = true)
    (held : wordOfLine? line = some word) : line.filter (· != ' ') = word.digits := by
  have binary : ∀ c ∈ line.filter (· != ' '), BitString.digitChar (c == '1') = c := by
    intro c member
    obtain ⟨inLine, solid⟩ := List.mem_filter.mp member
    have char := known c inLine
    simp only [isImageChar, Bool.or_eq_true, beq_iff_eq] at char
    rcases char with (rfl | rfl) | rfl
    · rfl
    · rfl
    · cases solid
  unfold wordOfLine? at held
  dsimp only at held
  split at held
  · rename_i sixteen
    have value := Bits.ofNat_value ((line.filter (· != ' ')).map (· == '1'))
    have small := Bits.value_lt ((line.filter (· != ' ')).map (· == '1'))
    rw [sixteen] at value small
    unfold Word.digits
    rw [← Option.some.inj held, BitVec.toNat_ofNat, Nat.mod_eq_of_lt small, value, List.map_map]
    exact ((List.map_congr_left binary).trans (List.map_id _)).symm
  · cases held

/-- Lines without a foreign character hold the words that the reader makes of them. -/
theorem holds_of_wordsOfLines (known : ∀ line ∈ lines, ∀ c ∈ line, isImageChar c = true)
    (read : wordsOfLines lines = words.map some) : Holds words lines := by
  induction lines generalizing words with
  | nil =>
      obtain rfl : words = [] := List.map_eq_nil_iff.mp read.symm
      exact .nil
  | cons line lines inductionHypothesis =>
      obtain ⟨first, others⟩ := List.forall_mem_cons.mp known
      rw [wordsOfLines_cons] at read
      split at read
      · cases words with
        | nil => cases read
        | cons word words =>
            obtain ⟨held, later⟩ := List.cons.inj read
            exact .word (spaced_of_filter_eq (filter_eq_digits first held))
              (inductionHypothesis others later)
      · rename_i noDigit
        have blank : line.filter (· != ' ') = [] :=
          List.filter_eq_nil_iff.mpr (List.any_eq_false.mp (eq_false_of_ne_true noDigit))
        exact .blank (spaced_of_filter_eq blank) (inductionHypothesis others read)

/-! ## Reading texts -/

theorem known_of_firstForeign? {text : List Char} {row column : Nat}
    (none : firstForeign? row column text = none) :
    ∀ c ∈ text, c = '\n' ∨ isImageChar c = true := by
  induction text generalizing row column with
  | nil => exact nofun
  | cons c text inductionHypothesis =>
      unfold firstForeign? at none
      split at none
      · rename_i newline
        exact List.forall_mem_cons.mpr ⟨.inl newline, inductionHypothesis none⟩
      · split at none
        · rename_i known
          exact List.forall_mem_cons.mpr ⟨.inr known, inductionHypothesis none⟩
        · cases none

theorem known_iff_of_pieces :
    (∀ c ∈ text.toList, c = '\n' ∨ isImageChar c = true) ↔
      ∀ line ∈ Text.pieces (· == '\n') text.toList, ∀ c ∈ line, isImageChar c = true := by
  have made := Text.flatMap_pieces '\n' text.toList
  constructor
  · intro known line isPiece c inLine
    have solid := Text.solid_of_mem_pieces isPiece c inLine
    have inMade : c ∈ text.toList ++ ['\n'] := by
      rw [← made]
      exact List.mem_flatMap.mpr ⟨line, isPiece, List.mem_append_left _ inLine⟩
    rcases List.mem_append.mp inMade with inText | newline
    · exact (known c inText).resolve_left (beq_eq_false_iff_ne.mp solid)
    · exact absurd (List.mem_singleton.mp newline) (beq_eq_false_iff_ne.mp solid)
  · intro known c inText
    have inMade : c ∈ text.toList ++ ['\n'] := List.mem_append_left _ inText
    rw [← made] at inMade
    obtain ⟨line, isPiece, inLine⟩ := List.mem_flatMap.mp inMade
    rcases List.mem_append.mp inLine with inPiece | newline
    · exact .inr (known line isPiece c inPiece)
    · exact .inl (List.mem_singleton.mp newline)

/-- A text that reads as well-formed words has lines that hold them. -/
theorem holds_of_read (accepted : read text = .ok (ofWords words)) :
    words ≠ [] ∧ words.length ≤ memorySize ∧
      Holds words (Text.pieces (· == '\n') text.toList) := by
  unfold read at accepted
  split at accepted
  · cases accepted
  · rename_i noForeign
    have known := known_iff_of_pieces.mp (known_of_firstForeign? noForeign)
    dsimp only at accepted
    split at accepted
    · cases accepted
    · rename_i present
      split at accepted
      · cases accepted
      · rename_i fits
        have held : (digitLines text.toList).map wordOfLine? = words.map some :=
          congrArg Image.words (Except.ok.inj accepted)
        have count : (digitLines text.toList).length = words.length := by
          simpa only [List.length_map] using congrArg List.length held
        refine ⟨?_, count ▸ Nat.le_of_not_lt fits, holds_of_wordsOfLines known held⟩
        rintro rfl
        exact present (List.isEmpty_iff.mpr (List.length_eq_zero_iff.mp count))

/-- The reader gets the words from lines that hold them. -/
theorem read_of_holds (present : words ≠ []) (fits : words.length ≤ memorySize)
    (holds : Holds words (Text.pieces (· == '\n') text.toList)) :
    read text = .ok (ofWords words) := by
  have held : (digitLines text.toList).map wordOfLine? = words.map some :=
    holds.wordsOfLines_eq
  have count : (digitLines text.toList).length = words.length := by
    simpa only [List.length_map] using congrArg List.length held
  have digits : (digitLines text.toList).isEmpty = false := by
    rw [List.isEmpty_eq_false_iff, ← List.length_pos_iff, count]
    exact List.length_pos_iff.mpr present
  unfold read
  simp only [firstForeign?_eq_none (known_iff_of_pieces.mpr holds.isImageChar), digits,
    Bool.false_eq_true, if_false, count, if_neg (Nat.not_lt.mpr fits), held]
  rfl

/-! ## Texts that lay words out -/

theorem Holds.close (holds : Holds words lines) : Holds words (lines ++ [[]]) := by
  induction holds with
  | nil => exact .blank .nil .nil
  | blank spaced _ inductionHypothesis => exact .blank spaced inductionHypothesis
  | word spaced _ inductionHypothesis => exact .word spaced inductionHypothesis

private theorem Holds.pieces_eq (holds : Holds words lines) :
    Text.pieces (· == '\n') (lines.flatMap (· ++ ['\n'])) = lines ++ [[]] :=
  Text.pieces_flatMap rfl fun line member c inLine =>
    ne_newline_of_isImageChar (holds.isImageChar line member c inLine)

/-- A text lays words out when its lines hold them, whether or not the last of them is
closed. -/
theorem laysOut_iff_holds :
    LaysOut words text ↔ Holds words (Text.pieces (· == '\n') text.toList) := by
  constructor
  · rintro (⟨lines, holds, made⟩ | ⟨lines, holds, made⟩)
    · rw [made, holds.pieces_eq]
      exact holds.close
    · have closed := @Text.pieces_append _ (· == '\n') '\n' rfl text.toList []
      rw [made, holds.pieces_eq] at closed
      rwa [← List.append_cancel_right closed]
  · intro holds
    exact .unclosed _ holds (Text.flatMap_pieces '\n' text.toList).symm

/-- The texts that read as given well-formed words are those that lay them out, if the
memory holds the words and there are any. -/
theorem read_eq_ofWords_iff :
    read text = .ok (ofWords words) ↔
      words ≠ [] ∧ words.length ≤ memorySize ∧ LaysOut words text := by
  rw [laysOut_iff_holds]
  constructor
  · exact holds_of_read
  · rintro ⟨present, fits, holds⟩
    exact read_of_holds present fits holds

/-! ## Rewriting -/

/-- The text with the layouts of the words that a text reads as, if it reads as well-formed
words. -/
def rewritten? (text : String) : Option String :=
  match read text with
  | .error _ => none
  | .ok image =>
      if none ∈ image.words then none
      else some (write ((image.words.filterMap id).map Word.layout))

theorem ofWords_filterMap {image : Image} (wellFormed : none ∉ image.words) :
    ofWords (image.words.filterMap id) = image := by
  obtain ⟨cells⟩ := image
  refine congrArg Image.mk ?_
  induction cells with
  | nil => rfl
  | cons cell cells inductionHypothesis =>
      cases cell with
      | none => exact absurd (List.mem_cons_self ..) wellFormed
      | some word =>
          have later := inductionHypothesis fun member =>
            wellFormed (List.mem_cons_of_mem _ member)
          exact congrArg (some word :: ·) later

private theorem none_not_mem_ofWords (words : List Word) : none ∉ (ofWords words).words := by
  simp [ofWords]

private theorem rewritten?_of_read (accepted : read text = .ok (ofWords words)) :
    rewritten? text = some (write (words.map Word.layout)) := by
  have same : (ofWords words).words.filterMap id = words := by
    simp [ofWords, List.filterMap_map]
  unfold rewritten?
  simp only [accepted, if_neg (none_not_mem_ofWords words), same]

private theorem exists_read_of_rewritten? {rewritten : String}
    (rewrites : rewritten? text = some rewritten) :
    ∃ words, read text = .ok (ofWords words) ∧ rewritten = write (words.map Word.layout) := by
  unfold rewritten? at rewrites
  split at rewrites
  · cases rewrites
  · rename_i image accepted
    split at rewrites
    · cases rewrites
    · rename_i wellFormed
      refine ⟨image.words.filterMap id, ?_, (Option.some.inj rewrites).symm⟩
      rw [ofWords_filterMap wellFormed, accepted]

/-- What the layouts of accepted words read as. -/
theorem read_write_of_read (accepted : read text = .ok (ofWords words)) :
    read (write (words.map Word.layout)) = .ok (ofWords words) := by
  obtain ⟨present, fits, -⟩ := read_eq_ofWords_iff.mp accepted
  exact read_write present fits

/-- Image text loses nothing but spaces and blank lines. One to 256 words are read from
every text that lays them out and from no other, so also from the text of their layouts. A
text that is read without a malformed word can be rewritten to the layouts of its words; that
reads as the same image, and rewriting it again changes nothing. -/
theorem spaced_text_round_trips :
    (∀ words text, read text = .ok (ofWords words) ↔
        words ≠ [] ∧ words.length ≤ memorySize ∧ LaysOut words text) ∧
      (∀ words, words ≠ [] → words.length ≤ memorySize →
        read (write (words.map Word.layout)) = .ok (ofWords words)) ∧
      (∀ text image, read text = .ok image → none ∉ image.words →
        ∃ words, image = ofWords words ∧
          rewritten? text = some (write (words.map Word.layout)) ∧
          read (write (words.map Word.layout)) = .ok image) ∧
      ∀ text rewritten, rewritten? text = some rewritten →
        rewritten? rewritten = some rewritten := by
  refine ⟨fun words text => read_eq_ofWords_iff, fun words => read_write, ?_, ?_⟩
  · intro text image accepted wellFormed
    rw [← ofWords_filterMap wellFormed] at accepted
    refine ⟨image.words.filterMap id, (ofWords_filterMap wellFormed).symm,
      rewritten?_of_read accepted, ?_⟩
    rw [read_write_of_read accepted, ofWords_filterMap wellFormed]
  · intro text rewritten rewrites
    obtain ⟨words, accepted, rfl⟩ := exists_read_of_rewritten? rewrites
    exact rewritten?_of_read (read_write_of_read accepted)

/-- Two words between blank lines, with spaces before, between and behind their digits, and
without a newline at the end. -/
def looseText : String :=
  "\n 0000 00010000  0101\n  \n0 0 0 0 0 0 0 0 1111 0000  "

theorem looseText_round_trips :
    LaysOut [0x0105, 0x00F0] looseText ∧
      read looseText = .ok (ofWords [0x0105, 0x00F0]) ∧
      rewritten? looseText = some "0000 0001 0000 0101\n0000 0000 1111 0000\n" ∧
      rewritten? "0000 0001 0000 0101\n0000 0000 1111 0000\n" =
        some "0000 0001 0000 0101\n0000 0000 1111 0000\n" := by
  have laid : LaysOut [0x0105, 0x00F0] looseText := by
    refine .unclosed (["", " 0000 00010000  0101", "  ",
      "0 0 0 0 0 0 0 0 1111 0000  "].map String.toList) ?_ rfl
    refine .blank .nil (.word (spaced_of_filter_eq ?_) (.blank (spaced_of_filter_eq ?_)
      (.word (spaced_of_filter_eq ?_) .nil)))
    · decide
    · decide
    · decide
  have rewrites : rewritten? looseText =
      some "0000 0001 0000 0101\n0000 0000 1111 0000\n" := by decide +kernel
  exact ⟨laid, (spaced_text_round_trips.1 _ _).mpr ⟨by decide, by decide, laid⟩, rewrites,
    spaced_text_round_trips.2.2.2 _ _ rewrites⟩

end Image

end MiniatureMachine
