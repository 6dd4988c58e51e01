import Mathlib.Data.List.DropRight
import Mathlib.Data.List.Forall2
import MiniatureMachine.Proofs.ImageSpacing
import MiniatureMachine.Proofs.Numeral

/-!
Contract: which texts are images, and what is wrong with the others.

Owns:
- the position of the first foreign character of a text;
- the lines of a text and what each of them loads as;
- what a text reads as, told from its characters and its lines;
- a reader that goes through the lines of a text twice, and that it reads the same.

The two passes cut the text differently: the first has a line behind every newline, the second
drops a last line that is empty, a carriage return before a newline, and every blank line. They
meet because a text that comes through the first pass has no carriage return and no blank
character but the space.
-/

namespace MiniatureMachine.Image

open Text (Numeral)

/-! ## Characters, lines and cells -/

def InAlphabet (c : Char) : Prop :=
  c = '0' ∨ c = '1' ∨ c = ' ' ∨ c = '\n'

instance (c : Char) : Decidable (InAlphabet c) :=
  inferInstanceAs (Decidable (_ ∨ _))

def isBit (c : Char) : Bool :=
  c == '0' || c == '1'

def hasBit (line : List Char) : Bool :=
  line.any isBit

/-- The lines that newlines divide a text into. With a newline behind each of them they make up
the text and one more newline. -/
structure DividesInto (text : List Char) (lines : List (List Char)) : Prop where
  made : text ++ ['\n'] = lines.flatMap (· ++ ['\n'])
  unbroken : ∀ line ∈ lines, '\n' ∉ line

/-- What a line with a digit loads as: the word whose binary numeral its digits are, or a
malformed cell if they are not sixteen. -/
inductive LoadsAs (line : List Char) : Option Word → Prop
  | word {word : Word} (sixteen : (line.filter isBit).length = 16)
      (numeral : Numeral 2 (line.filter isBit) word.toNat) : LoadsAs line (some word)
  | malformed (miscounted : (line.filter isBit).length ≠ 16) : LoadsAs line none

/-- What a text reads as. A foreign character is found before anything else is looked at, and
its position counts the newlines before it and the characters behind the last of them. -/
inductive ReadsAs (text : List Char) : Except ImageError Image → Prop
  | foreign {front rest : List Char} {found : Char} (made : text = front ++ found :: rest)
      (known : ∀ c ∈ front, InAlphabet c) (isForeign : ¬InAlphabet found) :
      ReadsAs text (.error (.invalidCharacter (1 + front.count '\n')
        (1 + (front.rtakeWhile (· != '\n')).length) found))
  | empty {lines : List (List Char)} (known : ∀ c ∈ text, InAlphabet c)
      (divides : DividesInto text lines) (digitless : lines.countP hasBit = 0) :
      ReadsAs text (.error .empty)
  | tooLarge {lines : List (List Char)} (known : ∀ c ∈ text, InAlphabet c)
      (divides : DividesInto text lines) (many : 256 < lines.countP hasBit) :
      ReadsAs text (.error (.tooLarge (lines.countP hasBit)))
  | image {lines : List (List Char)} {cells : List (Option Word)}
      (known : ∀ c ∈ text, InAlphabet c) (divides : DividesInto text lines)
      (present : lines.countP hasBit ≠ 0) (fits : lines.countP hasBit ≤ 256)
      (loads : List.Forall₂ LoadsAs (lines.filter hasBit) cells) :
      ReadsAs text (.ok ⟨cells⟩)

variable {text line front : List Char} {lines : List (List Char)}

theorem inAlphabet_iff {c : Char} : InAlphabet c ↔ c = '\n' ∨ isImageChar c = true := by
  simp only [InAlphabet, isImageChar, Bool.or_eq_true, beq_iff_eq]
  tauto

/-! ## The first foreign character -/

/-- Behind known characters the position is told by the newlines among them. -/
theorem firstForeign?_append (known : ∀ c ∈ front, InAlphabet c) (rest : List Char) :
    firstForeign? 1 1 (front ++ rest) =
      firstForeign? (1 + front.count '\n') (1 + (front.rtakeWhile (· != '\n')).length) rest := by
  -- The column is counted from the last newline, so the last character is the one to take off.
  induction front using List.reverseRecOn generalizing rest with
  | nil => rfl
  | append_singleton front c inductionHypothesis =>
      obtain ⟨others, last⟩ := List.forall_mem_append.mp known
      have next := inductionHypothesis others (c :: rest)
      rw [List.append_assoc, List.singleton_append, next, firstForeign?, List.count_append,
        List.rtakeWhile_concat]
      by_cases newline : c = '\n'
      · subst newline
        rfl
      · have image := (inAlphabet_iff.mp (last c List.mem_cons_self)).resolve_left newline
        have uncounted : [c].count '\n' = 0 :=
          List.count_eq_zero_of_not_mem (by simpa using Ne.symm newline)
        rw [if_neg newline, if_pos image, if_pos (by simpa using newline), uncounted,
          List.length_append, List.length_singleton, Nat.add_assoc]
        rfl

private theorem firstForeign?_of_foreign {rest : List Char} {found : Char}
    (known : ∀ c ∈ front, InAlphabet c) (isForeign : ¬InAlphabet found) :
    firstForeign? 1 1 (front ++ found :: rest) =
      some (1 + front.count '\n', 1 + (front.rtakeWhile (· != '\n')).length, found) := by
  obtain ⟨notNewline, notImage⟩ := not_or.mp (mt inAlphabet_iff.mpr isForeign)
  rw [firstForeign?_append known, firstForeign?, if_neg notNewline, if_neg notImage]

/-- A text has a first foreign character, or none. -/
theorem known_or_exists_foreign (text : List Char) :
    (∀ c ∈ text, InAlphabet c) ∨ ∃ front found rest, text = front ++ found :: rest ∧
      (∀ c ∈ front, InAlphabet c) ∧ ¬InAlphabet found := by
  obtain ⟨front, rest, made, belong, ends⟩ :=
    Text.exists_cut (fun c => decide (InAlphabet c)) text
  have known : ∀ c ∈ front, InAlphabet c := fun c member => of_decide_eq_true (belong c member)
  cases rest with
  | nil =>
      rw [List.append_nil] at made
      exact .inl (made ▸ known)
  | cons found rest =>
      exact .inr ⟨front, found, rest, made, known, of_decide_eq_false (ends found rfl)⟩

/-! ## Lines and what they load as -/

/-- A text is divided into its pieces between newlines, and into no other lines. -/
theorem dividesInto_iff : DividesInto text lines ↔ Text.pieces (· == '\n') text = lines := by
  constructor
  · rintro ⟨made, unbroken⟩
    have solid : ∀ line ∈ lines, ∀ c ∈ line, (c == '\n') = false := by
      intro line member c inLine
      rw [beq_eq_false_iff_ne]
      rintro rfl
      exact unbroken line member inLine
    have closed := @Text.pieces_append _ (· == '\n') '\n' rfl text []
    rw [made, Text.pieces_flatMap rfl solid] at closed
    exact (List.append_cancel_right closed).symm
  · rintro rfl
    refine ⟨(Text.flatMap_pieces '\n' text).symm, fun line isPiece newline => ?_⟩
    have solid := Text.solid_of_mem_pieces isPiece '\n' newline
    exact absurd solid (by decide)

theorem DividesInto.isImageChar (divides : DividesInto text lines)
    (known : ∀ c ∈ text, InAlphabet c) : ∀ line ∈ lines, ∀ c ∈ line, isImageChar c = true := by
  have pieces := dividesInto_iff.mp divides
  rw [← String.toList_ofList (l := text)] at pieces
  rw [← pieces]
  refine known_iff_of_pieces.mp fun c member => inAlphabet_iff.mp (known c ?_)
  rwa [String.toList_ofList] at member

private theorem isBit_of_isImageChar {c : Char} (known : isImageChar c = true) :
    isBit c = (c != ' ') := by
  simp only [isImageChar, Bool.or_eq_true, beq_iff_eq] at known
  rcases known with (rfl | rfl) | rfl <;> rfl

private theorem filter_isBit (known : ∀ c ∈ line, isImageChar c = true) :
    line.filter isBit = line.filter (· != ' ') :=
  List.filter_congr fun c member => isBit_of_isImageChar (known c member)

private theorem hasBit_eq (known : ∀ c ∈ line, isImageChar c = true) :
    hasBit line = line.any (· != ' ') := by
  rw [hasBit, Bool.eq_iff_iff, List.any_eq_true, List.any_eq_true]
  exact exists_congr fun c => and_congr_right fun member => by
    rw [isBit_of_isImageChar (known c member)]

/-- The digits of a word are the one binary numeral of its number that has sixteen digits. -/
theorem numeral_digits_iff {digits : List Char} {word : Word} :
    digits.length = 16 ∧ Numeral 2 digits word.toNat ↔ digits = word.digits := by
  have only := @Text.numeral_ofNat_iff (String.ofList digits) 16 word.toNat (by decide) word.isLt
  rwa [String.toList_ofList, BitString.render, String.ofList_inj] at only

/-- What is known to be a line of an image loads as the reader says. -/
theorem loadsAs_iff (known : ∀ c ∈ line, isImageChar c = true) {cell : Option Word} :
    LoadsAs line cell ↔ wordOfLine? line = cell := by
  have bits := filter_isBit known
  constructor
  · rintro (⟨sixteen, numeral⟩ | miscounted)
    · have digits := numeral_digits_iff.mp ⟨sixteen, numeral⟩
      exact Word.wordOfLine?_of_filter (bits ▸ digits)
    · rw [bits] at miscounted
      rw [wordOfLine?, List.length_map, if_neg miscounted]
  · rintro rfl
    cases held : wordOfLine? line with
    | some word =>
        have digits := numeral_digits_iff.mpr (bits.trans (filter_eq_digits known held))
        exact .word digits.1 digits.2
    | none =>
        refine .malformed fun sixteen => ?_
        rw [bits] at sixteen
        rw [wordOfLine?, List.length_map, if_pos sixteen] at held
        cases held

private theorem forall₂_loadsAs_iff (known : ∀ line ∈ lines, ∀ c ∈ line, isImageChar c = true)
    {cells : List (Option Word)} :
    List.Forall₂ LoadsAs lines cells ↔ lines.map wordOfLine? = cells := by
  induction lines generalizing cells with
  | nil => simp [eq_comm]
  | cons line lines inductionHypothesis =>
      obtain ⟨first, others⟩ := List.forall_mem_cons.mp known
      rw [List.forall₂_cons_left_iff, List.map_cons]
      simp only [loadsAs_iff first, inductionHypothesis others]
      constructor
      · rintro ⟨cell, more, rfl, rfl, rfl⟩
        rfl
      · rintro rfl
        exact ⟨_, _, rfl, rfl, rfl⟩

/-! ## What a text reads as -/

private theorem digitLines_eq (known : ∀ c ∈ text, InAlphabet c)
    (divides : DividesInto text lines) :
    digitLines text = lines.filter hasBit := by
  have chars := divides.isImageChar known
  rw [digitLines, dividesInto_iff.mp divides]
  exact List.filter_congr fun line member => (hasBit_eq (chars line member)).symm

/-- Without a foreign character only the lines with a digit matter. -/
theorem read_of_known {text : String} (known : ∀ c ∈ text.toList, InAlphabet c)
    (divides : DividesInto text.toList lines) :
    read text =
      if lines.countP hasBit = 0 then .error .empty
      else if 256 < lines.countP hasBit then .error (.tooLarge (lines.countP hasBit))
      else .ok ⟨(lines.filter hasBit).map wordOfLine?⟩ := by
  have noForeign := firstForeign?_eq_none (fun c member => inAlphabet_iff.mp (known c member)) 1 1
  unfold read
  simp only [noForeign, digitLines_eq known divides, List.countP_eq_length_filter,
    List.isEmpty_iff_length_eq_zero, memorySize, gt_iff_lt]

/-- Every text reads as something. -/
theorem readsAs_read (text : String) : ReadsAs text.toList (read text) := by
  rcases known_or_exists_foreign text.toList with
    known | ⟨front, found, rest, made, known, isForeign⟩
  · have divides := dividesInto_iff.mpr (rfl : Text.pieces (· == '\n') text.toList = _)
    have chars := divides.isImageChar known
    rw [read_of_known known divides]
    split
    · rename_i digitless
      exact .empty known divides digitless
    · rename_i present
      split
      · rename_i many
        exact .tooLarge known divides many
      · rename_i fits
        refine .image known divides present (Nat.le_of_not_lt fits)
          ((forall₂_loadsAs_iff ?_).mpr rfl)
        exact fun line member => chars line (List.mem_of_mem_filter member)
  · have foreign := @firstForeign?_of_foreign front rest found known isForeign
    rw [← made] at foreign
    unfold read
    simp only [foreign]
    exact .foreign made known isForeign

/-- A text reads as one thing only. -/
theorem ReadsAs.read_eq {text : String} {result : Except ImageError Image}
    (reads : ReadsAs text.toList result) : read text = result := by
  cases reads with
  | foreign made known isForeign =>
      unfold read
      simp only [made, firstForeign?_of_foreign known isForeign]
  | empty known divides digitless => rw [read_of_known known divides, if_pos digitless]
  | tooLarge known divides many =>
      rw [read_of_known known divides, if_neg (by omega), if_pos many]
  | image known divides present fits loads =>
      have chars := divides.isImageChar known
      have cells := (forall₂_loadsAs_iff fun line member =>
        chars line (List.mem_of_mem_filter member)).mp loads
      rw [read_of_known known divides, if_neg present, if_neg (Nat.not_lt.mpr fits), cells]

/-! ## Reading by lines -/

/-- The first character of a line that may not stand in an image, with its column. The first
character of the line stands in the given column. -/
def foreignInLine? (column : Nat) (line : List Char) : Option (Nat × Char) :=
  (line.zipIdx column).findSome? fun (c, column) =>
    if isImageChar c then none else some (column, c)

/-- The first character of lines that may not stand in an image, with its line and column. The
first of the lines has the given number. -/
def foreignInLines? (row : Nat) (lines : List (List Char)) : Option (Nat × Nat × Char) :=
  (lines.zipIdx row).findSome? fun (line, row) => (foreignInLine? 1 line).map (row, ·)

/-- The lines of a text, without their terminators, that are not blank. -/
def solidLines (text : List Char) : List (List Char) :=
  (Text.lines text).filter fun line => !(Text.trim line).isEmpty

/-- Reads an image text in two passes over its lines. -/
def readByLines (text : String) : Except ImageError Image :=
  match foreignInLines? 1 (Text.pieces (· == '\n') text.toList) with
  | some (line, column, found) => .error (.invalidCharacter line column found)
  | none =>
      let cells := (solidLines text.toList).map wordOfLine?
      if cells.isEmpty then .error .empty
      else if cells.length > memorySize then .error (.tooLarge cells.length)
      else .ok ⟨cells⟩

private theorem foreignInLine?_cons (column : Nat) (c : Char) (line : List Char) :
    foreignInLine? column (c :: line) =
      if isImageChar c then foreignInLine? (column + 1) line else some (column, c) := by
  rw [foreignInLine?, List.zipIdx_cons, List.findSome?_cons]
  split <;> simp_all [foreignInLine?]

private theorem foreignInLines?_cons (row : Nat) (line : List Char) (lines : List (List Char)) :
    foreignInLines? row (line :: lines) =
      ((foreignInLine? 1 line).map (row, ·)).or (foreignInLines? (row + 1) lines) := by
  rw [foreignInLines?, List.zipIdx_cons, List.findSome?_cons]
  dsimp only
  cases foreignInLine? 1 line <;> rfl

/-- From the middle of a line on, the first foreign character is one of that line or of a later
one. -/
theorem firstForeign?_eq_or {piece : List Char} {more : List (List Char)} {row column : Nat}
    (cut : Text.pieces (· == '\n') text = piece :: more) :
    firstForeign? row column text =
      ((foreignInLine? column piece).map (row, ·)).or (foreignInLines? (row + 1) more) := by
  induction text generalizing row column piece more with
  | nil =>
      obtain ⟨rfl, rfl⟩ := List.cons.inj cut
      rfl
  | cons c text inductionHypothesis =>
      obtain ⟨first, later, rest⟩ :=
        List.exists_cons_of_ne_nil (Text.pieces_ne_nil (· == '\n') text)
      rw [firstForeign?]
      by_cases newline : c = '\n'
      · rw [Text.pieces_cons_separator text (by simpa using newline), rest] at cut
        obtain ⟨rfl, rfl⟩ := List.cons.inj cut
        rw [if_pos newline, inductionHypothesis rest, foreignInLines?_cons]
        rfl
      · rw [Text.pieces, if_neg (by simpa using newline), rest] at cut
        obtain ⟨rfl, rfl⟩ := List.cons.inj cut
        rw [if_neg newline, foreignInLine?_cons]
        split
        · exact inductionHypothesis rest
        · rfl

private theorem foreignInLines?_pieces (text : List Char) :
    foreignInLines? 1 (Text.pieces (· == '\n') text) = firstForeign? 1 1 text := by
  obtain ⟨piece, more, cut⟩ := List.exists_cons_of_ne_nil (Text.pieces_ne_nil (· == '\n') text)
  rw [cut, foreignInLines?_cons, firstForeign?_eq_or cut]

private theorem isBlank_of_isImageChar {c : Char} (known : isImageChar c = true) :
    Text.isBlank c = (c == ' ') := by
  simp only [isImageChar, Bool.or_eq_true, beq_iff_eq] at known
  rcases known with (rfl | rfl) | rfl <;> decide

/-- Of the lines of an image those are blank that have only spaces. -/
theorem isEmpty_trim (known : ∀ c ∈ line, isImageChar c = true) :
    (!(Text.trim line).isEmpty) = line.any (· != ' ') := by
  by_cases front : Text.trimStart line = []
  · have blanks := List.dropWhile_eq_nil_iff.mp front
    have spaces : line.any (· != ' ') = false := by
      refine List.any_eq_false.mpr fun c member => ?_
      have space := blanks c member
      rw [isBlank_of_isImageChar (known c member)] at space
      simpa using space
    rw [spaces, Text.trim, front]
    rfl
  · obtain ⟨c, kept, trimmed, -⟩ := Text.exists_trim_eq_cons front
    have solid : line.any (· != ' ') = true := by
      obtain ⟨d, member, notBlank⟩ :=
        not_forall₂.mp (mt List.dropWhile_eq_nil_iff.mpr front)
      rw [isBlank_of_isImageChar (known d member)] at notBlank
      exact List.any_eq_true.mpr ⟨d, member, by simpa using notBlank⟩
    rw [solid, trimmed]
    rfl

/-- No line of an image ends in a carriage return, so nothing is dropped from it. -/
theorem dropCarriageReturn_eq (known : ∀ c ∈ line, isImageChar c = true) :
    Text.dropCarriageReturn line = line := by
  refine if_neg fun returned => ?_
  have known := known '\r' (List.mem_of_getLast? returned)
  exact absurd known (by decide)

private theorem solidLines_linesOfPieces
    (known : ∀ line ∈ lines, ∀ c ∈ line, isImageChar c = true) :
    ((Text.linesOfPieces lines).filter fun line => !(Text.trim line).isEmpty) =
      lines.filter fun line => line.any (· != ' ') := by
  induction lines using Text.linesOfPieces.induct with
  | case1 => rfl
  | case2 last empty =>
      rw [Text.linesOfPieces, if_pos empty, List.isEmpty_iff.mp empty]
      rfl
  | case3 last present =>
      rw [Text.linesOfPieces, if_neg present]
      exact List.filter_congr fun line member => isEmpty_trim (known line member)
  | case4 piece next more inductionHypothesis =>
      obtain ⟨first, others⟩ := List.forall_mem_cons.mp known
      rw [Text.linesOfPieces, List.filter_cons, List.filter_cons, inductionHypothesis others,
        dropCarriageReturn_eq first, isEmpty_trim first]

/-- Both readers read the same. -/
theorem readByLines_eq (text : String) : readByLines text = read text := by
  unfold readByLines read
  rw [foreignInLines?_pieces]
  cases found : firstForeign? 1 1 text.toList with
  | some position => rfl
  | none =>
      have known := known_iff_of_pieces.mp (known_of_firstForeign? found)
      have lines : solidLines text.toList = digitLines text.toList :=
        solidLines_linesOfPieces known
      simp only [lines, List.isEmpty_map, List.length_map]

/-- A text reads as what its characters and lines say and as nothing else, by one pass over the
text as well as by two passes over its lines. -/
theorem read_eq_iff_readsAs (text : String) (result : Except ImageError Image) :
    (read text = result ↔ ReadsAs text.toList result) ∧
      (readByLines text = result ↔ ReadsAs text.toList result) := by
  have only : read text = result ↔ ReadsAs text.toList result := by
    constructor
    · rintro rfl
      exact readsAs_read text
    · exact ReadsAs.read_eq
  rw [readByLines_eq]
  exact ⟨only, only⟩

example : read "01\n 1é\r" = .error (.invalidCharacter 2 3 'é') := by decide

end MiniatureMachine.Image
