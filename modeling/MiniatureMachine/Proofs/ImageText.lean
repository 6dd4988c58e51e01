import MiniatureMachine.Proofs.Isa.Layout
import MiniatureMachine.Proofs.Text

/-!
Contract: image text that is written reads back.

Owns:
- the characters and the lines of a written image;
- the round trip from words through image text.
-/

namespace MiniatureMachine

namespace Image

theorem firstForeign?_eq_none {text : List Char}
    (known : ∀ c ∈ text, c = '\n' ∨ isImageChar c = true) (line column : Nat) :
    firstForeign? line column text = none := by
  induction text generalizing line column with
  | nil => rfl
  | cons c text inductionHypothesis =>
      obtain ⟨first, others⟩ := List.forall_mem_cons.mp known
      unfold firstForeign?
      split
      · exact inductionHypothesis others _ _
      · rename_i notNewline
        rw [if_pos (first.resolve_left notNewline)]
        exact inductionHypothesis others _ _

/-! ## The characters of a layout -/

theorem isImageChar_digitChar (digit : Bool) : isImageChar (BitString.digitChar digit) = true := by
  cases digit <;> decide

theorem isImageChar_of_mem_layout {word : Word} {c : Char} (member : c ∈ word.layout.toList) :
    isImageChar c = true := by
  have digits : ∀ nibble : BitVec 4, ∀ c ∈ Word.nibbleText nibble, isImageChar c = true := by
    intro nibble c member
    obtain ⟨digit, -, rfl⟩ := List.mem_map.mp member
    exact isImageChar_digitChar digit
  rw [Word.toList_layout] at member
  simp only [List.mem_append, List.mem_cons] at member
  rcases member with first | rfl | second | rfl | third | rfl | fourth
  · exact digits _ c first
  · rfl
  · exact digits _ c second
  · rfl
  · exact digits _ c third
  · rfl
  · exact digits _ c fourth

private theorem any_layout (word : Word) : (word.layout.toList.any (· != ' ')) = true := by
  rw [Word.toList_layout]
  simp [Word.nibbleText, Bits.ofNat]

theorem ne_newline_of_isImageChar {c : Char} (known : isImageChar c = true) :
    (c == '\n') = false := by
  rw [beq_eq_false_iff_ne]
  rintro rfl
  cases known

/-! ## The round trip -/

theorem toList_write_layouts (words : List Word) :
    (write (words.map Word.layout)).toList =
      words.flatMap fun word => word.layout.toList ++ ['\n'] := by
  have newline : "\n".toList = ['\n'] := rfl
  unfold write
  simp only [String.toList_join, List.flatMap_map, String.toList_append, newline]

theorem mem_write_layouts {words : List Word} {c : Char}
    (member : c ∈ (write (words.map Word.layout)).toList) : c = '\n' ∨ isImageChar c = true := by
  rw [toList_write_layouts] at member
  obtain ⟨word, -, inLine⟩ := List.mem_flatMap.mp member
  rcases List.mem_append.mp inLine with inLayout | newline
  · exact .inr (isImageChar_of_mem_layout inLayout)
  · exact .inl (List.mem_singleton.mp newline)

private theorem digitLines_write (words : List Word) :
    digitLines (words.flatMap fun word => word.layout.toList ++ ['\n']) =
      words.map fun word => word.layout.toList := by
  induction words with
  | nil => rfl
  | cons word words inductionHypothesis =>
      have solid : ∀ c ∈ word.layout.toList, (c == '\n') = false :=
        fun c member => ne_newline_of_isImageChar (isImageChar_of_mem_layout member)
      have cut : ∀ rest, Text.pieces (· == '\n') (word.layout.toList ++ '\n' :: rest) =
          word.layout.toList :: Text.pieces (· == '\n') rest :=
        fun rest => Text.pieces_append_separator rest rfl solid
      unfold digitLines at inductionHypothesis ⊢
      rw [List.flatMap_cons, List.append_assoc, List.singleton_append, cut, List.filter_cons,
        any_layout, if_pos rfl, inductionHypothesis, List.map_cons]

/-- A written image reads back word by word, or is refused with the number of its words when
the memory does not hold them. -/
theorem read_write_layouts {words : List Word} (nonempty : words ≠ []) :
    read (write (words.map Word.layout)) =
      if words.length ≤ memorySize then .ok (ofWords words)
      else .error (.tooLarge words.length) := by
  have known : ∀ c ∈ words.flatMap fun word => word.layout.toList ++ ['\n'],
      c = '\n' ∨ isImageChar c = true := by
    rw [← toList_write_layouts]
    exact fun c => mem_write_layouts
  have lines := digitLines_write words
  have present : (words.map fun word => word.layout.toList).isEmpty = false := by
    simpa using nonempty
  have readBack : (words.map fun word => word.layout.toList).map wordOfLine? =
      words.map some := by
    simp only [List.map_map, Function.comp_def, Word.wordOfLine?_layout]
  unfold read
  simp only [toList_write_layouts, firstForeign?_eq_none known, lines, present, readBack,
    Bool.false_eq_true, if_false, List.length_map]
  by_cases fits : words.length ≤ memorySize
  · rw [if_neg (Nat.not_lt.mpr fits), if_pos fits]
    rfl
  · rw [if_pos (Nat.lt_of_not_le fits), if_neg fits]

theorem read_write {words : List Word} (nonempty : words ≠ [])
    (fits : words.length ≤ memorySize) :
    read (write (words.map Word.layout)) = .ok (ofWords words) := by
  rw [read_write_layouts nonempty, if_pos fits]

end Image

end MiniatureMachine
