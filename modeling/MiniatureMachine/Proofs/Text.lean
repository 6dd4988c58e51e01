import MiniatureMachine.Text.Blank
import MiniatureMachine.Text.Decimal
import MiniatureMachine.Text.Lines

/-!
Contract: texts that are written read back.

Owns:
- the numeral of a number, and what the readers make of it;
- where the characters of a class lie, and where a text leaves a class;
- trimming a text whose ends are not blank, and blanks at the ends of a text;
- the number that a text says behind some words;
- the pieces of a text, what they hold and what they make up together;
- the lines of a text that is put together from lines;
- the bytes of a text, how many they are at least, and the text that they are.
-/

namespace MiniatureMachine.Text

/-! ## Numerals -/

theorem isDigit_of_mem_toString {number : Nat} {c : Char}
    (member : c ∈ (toString number).toList) : c.isDigit = true := by
  rw [Nat.toString_eq_ofList_toDigits, String.toList_ofList] at member
  exact Nat.isDigit_of_mem_toDigits (by decide) (by decide) member

theorem toList_toString_ne_nil (number : Nat) : (toString number).toList ≠ [] := by
  rw [Nat.toString_eq_ofList_toDigits, String.toList_ofList]
  exact Nat.toDigits_ne_nil

theorem isDecimal_toString (number : Nat) : isDecimal (toString number).toList = true := by
  have digits : ∀ c ∈ (toString number).toList, c.isDigit = true :=
    fun c member => isDigit_of_mem_toString member
  simp only [isDecimal, Bool.and_eq_true, List.all_eq_true]
  exact ⟨by simp, digits⟩

theorem digits_of_isDecimal {text : List Char} (decimal : isDecimal text = true) :
    text ≠ [] ∧ ∀ c ∈ text, c.isDigit = true := by
  simpa [isDecimal] using decimal

private theorem valueOfDigits_ten {digits : List Char} (decimal : ∀ c ∈ digits, c.isDigit = true) :
    valueOfDigits 10 digits = Nat.ofDigitChars 10 digits 0 := by
  unfold valueOfDigits Nat.ofDigitChars
  generalize 0 = value
  induction digits generalizing value with
  | nil => rfl
  | cons c digits inductionHypothesis =>
      obtain ⟨first, others⟩ := List.forall_mem_cons.mp decimal
      rw [List.foldl_cons, List.foldl_cons, digitValue, if_pos first]
      exact inductionHypothesis others _

theorem decimal?_toString (number : Nat) : decimal? (toString number).toList = some number := by
  have digits : ∀ c ∈ (toString number).toList, c.isDigit = true :=
    fun c member => isDigit_of_mem_toString member
  rw [decimal?, if_pos (isDecimal_toString number), valueOfDigits_ten digits,
    Nat.toString_eq_ofList_toDigits, String.toList_ofList, Nat.ofDigitChars_ten_toDigits]

/-- The numeral of an integer is that of a natural number, with a minus sign or without. -/
theorem toString_int_cases (number : Int) :
    (∃ magnitude : Nat, number = magnitude ∧
      (toString number).toList = (toString magnitude).toList) ∨
    ∃ magnitude : Nat, number = -(magnitude : Int) ∧
      (toString number).toList = '-' :: (toString magnitude).toList := by
  cases number with
  | ofNat magnitude => exact .inl ⟨magnitude, rfl, rfl⟩
  | negSucc magnitude =>
      refine .inr ⟨magnitude + 1, rfl, ?_⟩
      show ("-" ++ Nat.repr (magnitude + 1)).toList = _
      rw [String.toList_append]
      rfl

theorem ne_of_isDigit {c other : Char} (digit : c.isDigit = true)
    (foreign : other.isDigit = false) : c ≠ other := by
  rintro rfl
  rw [digit] at foreign
  cases foreign

/-! ## Classes of characters -/

theorem toNat_of_isDigit {c : Char} (digit : c.isDigit = true) :
    48 ≤ c.toNat ∧ c.toNat ≤ 57 := by
  have bounds : (decide ('0'.val ≤ c.val) && decide (c.val ≤ '9'.val)) = true := digit
  simp only [Bool.and_eq_true, decide_eq_true_eq, UInt32.le_iff_toNat_le] at bounds
  exact bounds

/-- The hexadecimal digits lie between the digit `0` and the letter `f`. -/
theorem toNat_of_isHexDigit {c : Char} (digit : isHexDigit c = true) :
    48 ≤ c.toNat ∧ c.toNat < 103 := by
  simp only [isHexDigit, isBetween, Bool.or_eq_true, Bool.and_eq_true, decide_eq_true_eq,
    Char.reduceToNat] at digit
  rcases digit with (decimal | lower) | upper
  · have bounds := toNat_of_isDigit decimal
    omega
  · omega
  · omega

theorem toNat_of_isLower {c : Char} (lower : c.isLower = true) :
    97 ≤ c.toNat ∧ c.toNat ≤ 122 := by
  have bounds : (decide ('a'.val ≤ c.val) && decide (c.val ≤ 'z'.val)) = true := lower
  simp only [Bool.and_eq_true, decide_eq_true_eq, UInt32.le_iff_toNat_le] at bounds
  exact bounds

/-- Between the space and the delete character no ASCII character is blank. -/
theorem isBlank_of_visible {c : Char} (above : 32 < c.toNat) (below : c.toNat < 127) :
    isBlank c = false := by
  have apart : ∀ range ∈ blankRanges, range.2 ≤ 32 ∨ 127 ≤ range.1 := by decide
  refine List.any_eq_false.mpr fun range member => ?_
  have outside := apart range member
  simp only [Bool.and_eq_true, decide_eq_true_eq]
  omega

theorem isDigit_of_isBlank {c : Char} (blank : isBlank c = true) : c.isDigit = false := by
  cases digit : c.isDigit with
  | false => rfl
  | true =>
      have bounds := toNat_of_isDigit digit
      rw [isBlank_of_visible (by omega) (by omega)] at blank
      cases blank

theorem isBlank_of_isLower {c : Char} (lower : c.isLower = true) : isBlank c = false := by
  have bounds := toNat_of_isLower lower
  exact isBlank_of_visible (by omega) (by omega)

theorem isLower_of_isBlank {c : Char} (blank : isBlank c = true) : c.isLower = false := by
  cases lower : c.isLower with
  | false => rfl
  | true =>
      rw [isBlank_of_isLower lower] at blank
      cases blank

theorem isDigit_of_isLower {c : Char} (lower : c.isLower = true) : c.isDigit = false := by
  cases digit : c.isDigit with
  | false => rfl
  | true =>
      have bounds := toNat_of_isLower lower
      have below := toNat_of_isDigit digit
      omega

/-- A text is cut where its characters stop to be of a class. -/
theorem span_append {inClass : Char → Bool} {front rest : List Char}
    (belong : ∀ c ∈ front, inClass c = true) (ends : ∀ c ∈ rest.head?, inClass c = false) :
    (front ++ rest).takeWhile inClass = front ∧ (front ++ rest).dropWhile inClass = rest := by
  rw [List.takeWhile_append_of_pos belong, List.dropWhile_append_of_pos belong]
  cases rest with
  | nil => exact ⟨List.append_nil _, rfl⟩
  | cons c rest =>
      have stops : inClass c = false := ends c rfl
      rw [List.takeWhile_cons, List.dropWhile_cons, stops]
      exact ⟨List.append_nil _, rfl⟩

/-- Every text can be cut where it leaves a class for the first time. -/
theorem exists_cut (inClass : Char → Bool) (text : List Char) :
    ∃ front rest, text = front ++ rest ∧ (∀ c ∈ front, inClass c = true) ∧
      ∀ c ∈ rest.head?, inClass c = false := by
  refine ⟨text.takeWhile inClass, text.dropWhile inClass,
    List.takeWhile_append_dropWhile.symm, ?_, ?_⟩
  · exact List.all_eq_true.mp List.all_takeWhile
  · intro c first
    have outside := List.head?_dropWhile_not inClass text
    rw [Option.mem_def.mp first] at outside
    simpa using outside

/-! ## Trimming -/

theorem trimStart_of_head {text : List Char} (solid : ∀ c ∈ text.head?, isBlank c = false) :
    trimStart text = text :=
  (@span_append isBlank [] text nofun solid).2

theorem trimEnd_of_last {text : List Char} (solid : ∀ c ∈ text.getLast?, isBlank c = false) :
    trimEnd text = text := by
  rw [← List.head?_reverse] at solid
  show (trimStart text.reverse).reverse = text
  rw [trimStart_of_head solid, List.reverse_reverse]

/-- What follows the first character outside a class makes no difference to where a text
leaves the class. -/
theorem span_append_of_head {inClass : Char → Bool} (text : List Char) {rest : List Char}
    (ends : ∀ c ∈ rest.head?, inClass c = false) :
    (text ++ rest).takeWhile inClass = text.takeWhile inClass ∧
      (text ++ rest).dropWhile inClass = text.dropWhile inClass ++ rest := by
  have belong : ∀ c ∈ text.takeWhile inClass, inClass c = true :=
    List.all_eq_true.mp List.all_takeWhile
  have stops : ∀ c ∈ (text.dropWhile inClass ++ rest).head?, inClass c = false := by
    have dropped := List.head?_dropWhile_not inClass text
    cases left : text.dropWhile inClass with
    | nil => exact ends
    | cons first later =>
        rw [left] at dropped
        simpa using dropped
  have cut := span_append belong stops
  rwa [← List.append_assoc, List.takeWhile_append_dropWhile] at cut

/-- Blanks in front of a text are trimmed. -/
theorem trim_cons_blank {c : Char} (blank : isBlank c = true) (text : List Char) :
    trim (c :: text) = trim text := by
  simp [trim, trimStart, blank]

theorem trimStart_of_blanks {gap : List Char} (blanks : ∀ c ∈ gap, isBlank c = true) :
    trimStart gap = [] := by
  have cut := (@span_append isBlank gap [] blanks nofun).2
  rwa [List.append_nil] at cut

/-- A text that does not consist of blanks keeps what follows it when its front is
trimmed. -/
theorem trimStart_append_of_ne_nil {text : List Char} (solid : trimStart text ≠ [])
    (rest : List Char) : trimStart (text ++ rest) = trimStart text ++ rest := by
  unfold trimStart at *
  rw [List.dropWhile_append, if_neg (by simpa using solid)]

theorem trimStart_append_of_eq_nil {text : List Char} (blank : trimStart text = [])
    (rest : List Char) : trimStart (text ++ rest) = trimStart rest := by
  unfold trimStart at *
  rw [List.dropWhile_append, if_pos (by simpa using blank)]

theorem trimEnd_append_blanks {gap : List Char} (blanks : ∀ c ∈ gap, isBlank c = true)
    (text : List Char) : trimEnd (text ++ gap) = trimEnd text := by
  have reversed : ∀ c ∈ gap.reverse, isBlank c = true :=
    fun c member => blanks c (List.mem_reverse.mp member)
  rw [trimEnd, List.reverse_append, List.dropWhile_append_of_pos reversed]
  rfl

/-- Blanks behind a text are trimmed. -/
theorem trim_append_blanks {gap : List Char} (blanks : ∀ c ∈ gap, isBlank c = true)
    (text : List Char) : trim (text ++ gap) = trim text := by
  unfold trim
  by_cases front : trimStart text = []
  · rw [trimStart_append_of_eq_nil front, front, trimStart_of_blanks blanks]
  · rw [trimStart_append_of_ne_nil front, trimEnd_append_blanks blanks]

theorem trim_append_blank {c : Char} (blank : isBlank c = true) (text : List Char) :
    trim (text ++ [c]) = trim text :=
  trim_append_blanks (List.forall_mem_singleton.mpr blank) text

/-- At the end of a text, nothing is trimmed in front of a character that is not blank. -/
theorem exists_trimEnd_append {c : Char} (solid : isBlank c = false) (front rest : List Char) :
    ∃ kept, trimEnd (front ++ c :: rest) = front ++ c :: kept := by
  have reversed : (front ++ c :: rest).reverse = rest.reverse ++ c :: front.reverse := by simp
  have stops : ∀ other ∈ (c :: front.reverse).head?, isBlank other = false := by
    rintro other ⟨⟩
    exact solid
  refine ⟨(rest.reverse.dropWhile isBlank).reverse, ?_⟩
  rw [trimEnd, reversed, (span_append_of_head rest.reverse stops).2]
  simp

/-- A trimmed text begins with the first character that is not blank. -/
theorem exists_trim_eq_cons {text : List Char} (present : trimStart text ≠ []) :
    ∃ c kept, trim text = c :: kept ∧ c ∈ text := by
  obtain ⟨c, rest, front⟩ := List.exists_cons_of_ne_nil present
  have solid : isBlank c = false := by
    have dropped := List.head?_dropWhile_not isBlank text
    rwa [show text.dropWhile isBlank = c :: rest from front] at dropped
  obtain ⟨kept, ends⟩ := exists_trimEnd_append solid [] rest
  refine ⟨c, kept, ?_, ?_⟩
  · rw [trim, front]
    exact ends
  · apply (List.dropWhile_sublist isBlank).mem
    rw [show text.dropWhile isBlank = c :: rest from front]
    exact List.mem_cons_self

/-- What is trimmed from the end of a text are blanks. -/
theorem exists_eq_trimEnd_append (text : List Char) :
    ∃ gap, text = trimEnd text ++ gap ∧ ∀ c ∈ gap, isBlank c = true := by
  refine ⟨(text.reverse.takeWhile isBlank).reverse, ?_, ?_⟩
  · rw [trimEnd, ← List.reverse_append, List.takeWhile_append_dropWhile, List.reverse_reverse]
  · intro c member
    exact List.all_eq_true.mp List.all_takeWhile c (List.mem_reverse.mp member)

theorem mem_of_mem_trim {c : Char} {text : List Char} (member : c ∈ trim text) : c ∈ text := by
  obtain ⟨gap, parts, -⟩ := exists_eq_trimEnd_append (trimStart text)
  apply (List.dropWhile_sublist isBlank).mem
  show c ∈ trimStart text
  rw [parts]
  exact List.mem_append_left gap member

/-! ## Numbers behind words -/

/-- Words stand in a text, and right behind them stands the whole numeral of a number. -/
def Names (words : String) (number : Nat) (text : String) : Prop :=
  ∃ front rest, text.toList = front ++ (words.toList ++ ((toString number).toList ++ rest)) ∧
    ∀ c ∈ rest.head?, c.isDigit = false

/-- Within an opening, words can begin only where the opening ends with them. -/
def ClosesOnly (words : List Char) : (opening : List Char) → Prop
  | [] => True
  | c :: opening =>
      (c :: opening <+: words ∨ words <+: c :: opening → c :: opening = words) ∧
        ClosesOnly words opening

instance decidableClosesOnly (words : List Char) :
    (opening : List Char) → Decidable (ClosesOnly words opening)
  | [] => isTrue trivial
  | _ :: opening => @instDecidableAnd _ _ inferInstance (decidableClosesOnly words opening)

private theorem ClosesOnly.eq_words {words front tail : List Char}
    (closes : ClosesOnly words (front ++ tail))
    (present : tail ≠ []) (begins : tail <+: words ∨ words <+: tail) : tail = words := by
  induction front with
  | nil =>
      obtain ⟨c, tail, rfl⟩ := List.exists_cons_of_ne_nil present
      exact closes.1 begins
  | cons c front inductionHypothesis => exact inductionHypothesis closes.2

private theorem occurrence_cases {words opening back front rest : List Char}
    (closes : ClosesOnly words opening) (occurs : opening ++ back = front ++ (words ++ rest)) :
    (opening = front ++ words ∧ back = rest) ∨ ∃ more, back = more ++ (words ++ rest) := by
  rcases List.append_eq_append_iff.mp occurs with ⟨more, rfl, later⟩ | ⟨tail, rfl, later⟩
  · exact .inr ⟨more, later⟩
  · by_cases nothing : tail = []
    · subst nothing
      exact .inr ⟨[], later.symm⟩
    · have begins : tail <+: words ∨ words <+: tail :=
        List.prefix_or_prefix_of_prefix ⟨back, later.symm⟩ ⟨rest, rfl⟩
      obtain rfl := closes.eq_words nothing begins
      exact .inl ⟨rfl, (List.append_cancel_left later).symm⟩

theorem names_of_closes {words opening text : String} {back : List Char} {number : Nat}
    (closes : ClosesOnly words.toList opening.toList) (shown : text.toList = opening.toList ++ back)
    (named : Names words number text) :
    (words.toList <:+ opening.toList ∧ ∃ rest, back = (toString number).toList ++ rest ∧
        ∀ c ∈ rest.head?, c.isDigit = false) ∨
      Names words number (String.ofList back) := by
  obtain ⟨front, rest, occurs, ends⟩ := named
  rw [shown] at occurs
  rcases occurrence_cases closes occurs with ⟨closed, behind⟩ | ⟨more, behind⟩
  · exact .inl ⟨⟨front, closed.symm⟩, rest, behind, ends⟩
  · exact .inr ⟨more, rest, by rw [String.toList_ofList]; exact behind, ends⟩

/-- Words do not stand in a text without one of their characters. -/
theorem not_names_of_absent {words : String} {text : List Char} {c : Char} {number : Nat}
    (needed : c ∈ words.toList) (absent : c ∉ text) : ¬Names words number (String.ofList text) := by
  rintro ⟨front, rest, occurs, -⟩
  rw [String.toList_ofList] at occurs
  apply absent
  rw [occurs]
  simp [needed]

private theorem eq_of_numeral_append {number other : Nat} {back rest : List Char}
    (same : (toString number).toList ++ back = (toString other).toList ++ rest)
    (ends : ∀ c ∈ back.head?, c.isDigit = false) (ends' : ∀ c ∈ rest.head?, c.isDigit = false) :
    number = other := by
  have digits := fun number => fun c (member : c ∈ (toString number).toList) =>
    isDigit_of_mem_toString member
  have cut := (span_append (digits number) ends).1
  rw [same, (span_append (digits other) ends').1] at cut
  have read := decimal?_toString other
  rw [cut, decimal?_toString number] at read
  exact Option.some.inj read

/-- A text that opens with words and has nothing like them later says the number that
follows them, and no other. -/
theorem names_iff_of_closes {words opening text : String} {back : List Char} {c : Char}
    {address number : Nat} (closes : ClosesOnly words.toList opening.toList)
    (closed : words.toList <:+ opening.toList) (needed : c ∈ words.toList)
    (notDigit : c.isDigit = false)
    (shown : text.toList = opening.toList ++ ((toString address).toList ++ back))
    (absent : c ∉ back) (ends : ∀ c ∈ back.head?, c.isDigit = false) :
    Names words number text ↔ number = address := by
  constructor
  · intro named
    rcases names_of_closes closes shown named with ⟨-, rest, behind, ends'⟩ | later
    · exact (eq_of_numeral_append behind ends ends').symm
    · refine absurd later (not_names_of_absent needed fun member => ?_)
      rcases List.mem_append.mp member with inNumeral | inBack
      · exact absurd rfl (ne_of_isDigit (isDigit_of_mem_toString inNumeral) notDigit)
      · exact absent inBack
  · rintro rfl
    obtain ⟨front, opens⟩ := closed
    exact ⟨front, back, by rw [shown, ← opens, List.append_assoc], ends⟩

/-! ## Lines -/

/-- A separator divides a text into two that are cut on their own. -/
theorem pieces_append {α : Type} {isSeparator : α → Bool} {separator : α}
    (separates : isSeparator separator = true) (text rest : List α) :
    pieces isSeparator (text ++ separator :: rest) =
      pieces isSeparator text ++ pieces isSeparator rest := by
  induction text with
  | nil => exact pieces_cons_separator rest separates
  | cons c text inductionHypothesis =>
      rw [List.cons_append, pieces, pieces, inductionHypothesis]
      by_cases isSeparated : isSeparator c = true
      · rw [if_pos isSeparated, if_pos isSeparated, List.cons_append]
      · rw [if_neg isSeparated, if_neg isSeparated]
        obtain ⟨first, more, cut⟩ :=
          List.exists_cons_of_ne_nil (pieces_ne_nil isSeparator text)
        rw [cut]
        rfl

theorem pieces_of_solid {α : Type} {isSeparator : α → Bool} {text : List α}
    (solid : ∀ c ∈ text, isSeparator c = false) : pieces isSeparator text = [text] := by
  induction text with
  | nil => rfl
  | cons c text inductionHypothesis =>
      obtain ⟨first, others⟩ := List.forall_mem_cons.mp solid
      rw [pieces, first, inductionHypothesis others]
      rfl

theorem pieces_append_separator {α : Type} {isSeparator : α → Bool} {separator : α}
    {line : List α} (rest : List α) (separates : isSeparator separator = true)
    (solid : ∀ c ∈ line, isSeparator c = false) :
    pieces isSeparator (line ++ separator :: rest) = line :: pieces isSeparator rest := by
  induction line with
  | nil => exact pieces_cons_separator rest separates
  | cons c line inductionHypothesis =>
      obtain ⟨first, others⟩ := List.forall_mem_cons.mp solid
      rw [List.cons_append, pieces, first, inductionHypothesis others]
      rfl

theorem solid_of_mem_pieces {α : Type} {isSeparator : α → Bool} {text piece : List α}
    (member : piece ∈ pieces isSeparator text) : ∀ c ∈ piece, isSeparator c = false := by
  induction text generalizing piece with
  | nil =>
      rw [pieces, List.mem_singleton] at member
      simp [member]
  | cons c text inductionHypothesis =>
      unfold pieces at member
      split at member
      · rcases List.mem_cons.mp member with rfl | later
        · simp
        · exact inductionHypothesis later
      · rename_i solid
        split at member
        · rename_i none
          exact absurd none (pieces_ne_nil _ _)
        · rename_i first more split
          rw [split] at inductionHypothesis
          rcases List.mem_cons.mp member with rfl | later
          · intro other inPiece
            rcases List.mem_cons.mp inPiece with rfl | inFirst
            · exact Bool.not_eq_true _ ▸ solid
            · exact inductionHypothesis (List.mem_cons_self ..) other inFirst
          · exact inductionHypothesis (List.mem_cons_of_mem _ later)

theorem eq_nil_of_pieces {α : Type} {isSeparator : α → Bool} {text : List α}
    (empty : pieces isSeparator text = [[]]) : text = [] := by
  cases text with
  | nil => rfl
  | cons c text =>
      unfold pieces at empty
      split at empty
      · exact absurd (List.cons.inj empty).2 (pieces_ne_nil _ _)
      · split at empty <;> cases empty

/-- With the separator behind every piece, the pieces make up the text and one more
separator. -/
theorem flatMap_pieces {α : Type} [BEq α] [LawfulBEq α] (separator : α) (text : List α) :
    (pieces (· == separator) text).flatMap (· ++ [separator]) = text ++ [separator] := by
  induction text with
  | nil => rfl
  | cons c text inductionHypothesis =>
      unfold pieces
      split
      · rename_i separates
        rw [List.flatMap_cons, inductionHypothesis, eq_of_beq separates]
        rfl
      · obtain ⟨first, more, cut⟩ :=
          List.exists_cons_of_ne_nil (pieces_ne_nil (· == separator) text)
        rw [cut, List.flatMap_cons] at inductionHypothesis
        rw [cut, List.flatMap_cons, List.cons_append, List.cons_append, inductionHypothesis]
        rfl

/-- Lines with a separator behind each, and something without a separator behind them, are
the pieces of what they make up. -/
theorem pieces_flatMap_append {α : Type} {isSeparator : α → Bool} {separator : α}
    (separates : isSeparator separator = true) {lines : List (List α)} {rest : List α}
    (solid : ∀ line ∈ lines, ∀ c ∈ line, isSeparator c = false)
    (unclosed : ∀ c ∈ rest, isSeparator c = false) :
    pieces isSeparator (lines.flatMap (· ++ [separator]) ++ rest) = lines ++ [rest] := by
  induction lines with
  | nil => exact pieces_of_solid unclosed
  | cons line lines inductionHypothesis =>
      obtain ⟨first, others⟩ := List.forall_mem_cons.mp solid
      rw [List.flatMap_cons, List.append_assoc, List.append_assoc, List.singleton_append,
        pieces_append_separator _ separates first, inductionHypothesis others]
      rfl

theorem pieces_flatMap {α : Type} {isSeparator : α → Bool} {separator : α}
    (separates : isSeparator separator = true) {lines : List (List α)}
    (solid : ∀ line ∈ lines, ∀ c ∈ line, isSeparator c = false) :
    pieces isSeparator (lines.flatMap (· ++ [separator])) = lines ++ [[]] := by
  rw [← pieces_flatMap_append separates solid (List.forall_mem_nil _), List.append_nil]

theorem length_pieces_le {α : Type} (isSeparator : α → Bool) (text : List α) :
    (pieces isSeparator text).length ≤ text.length + 1 := by
  induction text with
  | nil => exact Nat.le_refl 1
  | cons c text inductionHypothesis =>
      rw [pieces, List.length_cons]
      split
      · rw [List.length_cons]
        omega
      · obtain ⟨piece, more, cut⟩ :=
          List.exists_cons_of_ne_nil (pieces_ne_nil isSeparator text)
        rw [cut, List.length_cons] at inductionHypothesis
        rw [cut]
        dsimp only
        rw [List.length_cons]
        omega

/-- A text that is one line: it does not hold a newline, and there is something on it
that does not belong to a line terminator. -/
structure IsLine (text : List Char) : Prop where
  present : text ≠ []
  unbroken : ∀ c ∈ text, (c == '\n') = false
  noReturn : text.getLast? ≠ some '\r'

private theorem lines_append_newline {text : List Char} (isLine : IsLine text) (rest : List Char) :
    lines (text ++ '\n' :: rest) = text :: lines rest := by
  unfold lines
  rw [pieces_append_separator rest rfl isLine.unbroken]
  obtain ⟨next, more, split⟩ := List.exists_cons_of_ne_nil (pieces_ne_nil (· == '\n') rest)
  rw [split, linesOfPieces, dropCarriageReturn, if_neg isLine.noReturn]

private theorem lines_of_isLine {text : List Char} (isLine : IsLine text) :
    lines text = [text] := by
  unfold lines
  rw [pieces_of_solid isLine.unbroken, linesOfPieces, if_neg]
  rw [List.isEmpty_iff]
  exact isLine.present

/-- Texts with newlines between them are the lines of what they make up together, with a
newline at the end or without. -/
theorem lines_intercalate {texts : List (List Char)} (areLines : ∀ text ∈ texts, IsLine text)
    {ending : List Char} (ends : ending = [] ∨ texts ≠ [] ∧ ending = ['\n']) :
    lines (['\n'].intercalate texts ++ ending) = texts := by
  induction texts with
  | nil =>
      rcases ends with rfl | ⟨present, -⟩
      · rfl
      · exact absurd rfl present
  | cons text texts inductionHypothesis =>
      obtain ⟨first, others⟩ := List.forall_mem_cons.mp areLines
      cases texts with
      | nil =>
          rw [List.intercalate_singleton]
          rcases ends with rfl | ⟨-, rfl⟩
          · rw [List.append_nil, lines_of_isLine first]
          · rw [lines_append_newline first, lines_nil]
      | cons next texts =>
          have later : ending = [] ∨ next :: texts ≠ [] ∧ ending = ['\n'] :=
            ends.imp_right fun closed => ⟨List.cons_ne_nil _ _, closed.2⟩
          rw [List.intercalate_cons_cons, List.append_assoc, List.append_assoc,
            List.singleton_append, lines_append_newline first,
            inductionHypothesis others later]

/-! ## Bytes -/

theorem fromUTF8?_toUTF8 (text : String) : String.fromUTF8? text.toUTF8 = some text := by
  have valid : text.toUTF8.IsValidUTF8 := text.isValidUTF8
  unfold String.fromUTF8?
  rw [dif_pos valid]
  rfl

/-- A character takes one byte or more. -/
theorem length_le_utf8ByteSize (text : String) : text.length ≤ text.utf8ByteSize := by
  rw [← String.ofList_toList (s := text), String.length_ofList]
  induction text.toList with
  | nil => exact Nat.zero_le _
  | cons c rest inductionHypothesis =>
      have front : String.ofList (c :: rest) = String.singleton c ++ String.ofList rest := by
        rw [← List.singleton_append, String.ofList_append]
        rfl
      have positive := Char.utf8Size_pos c
      rw [front, String.utf8ByteSize_append, String.utf8ByteSize_singleton, List.length_cons]
      omega

end MiniatureMachine.Text
