import MiniatureMachine.BitString

/-!
Contract: the texts that are bit strings.

Owns:
- the digits that a text spells, or what is wrong with it;
- that the reader finds exactly these;
- the length of a bit string as a text.

The length of a text is looked at before its characters and counts bytes. A text of binary
digits has as many bytes as digits, so for bit strings the two counts are one.
-/

namespace MiniatureMachine.BitString

/-- The text consists of the given digits, and of no more than a bit string may have. -/
structure Spells (text : String) (digits : List Bool) : Prop where
  shown : text = render digits
  short : digits.length ≤ 63

/-- What is wrong with a text that is no bit string: it has too many bytes, or else a character
that is no binary digit, of which the first one is named. -/
inductive Malformed (text : String) : BitError → Prop
  | tooWide (long : 63 < text.utf8ByteSize) : Malformed text (.tooWide text.utf8ByteSize)
  | invalidDigit {digits : List Bool} {found : Char} {rest : List Char}
      (short : text.utf8ByteSize ≤ 63)
      (shown : text.toList = digits.map digitChar ++ found :: rest)
      (foreign : found ≠ '0' ∧ found ≠ '1') : Malformed text (.invalidDigit found)

variable {text : String} {list : List Bool} {fault : BitError}

/-! ## Bit strings as texts -/

@[simp] theorem toList_render (list : List Bool) : (render list).toList = list.map digitChar :=
  String.toList_ofList

@[simp] theorem utf8ByteSize_render (list : List Bool) :
    (render list).utf8ByteSize = list.length := by
  induction list with
  | nil => rfl
  | cons digit list inductionHypothesis =>
      have front : render (digit :: list) = String.singleton (digitChar digit) ++ render list := by
        rw [String.singleton_eq_ofList, render, render, ← String.ofList_append]
        rfl
      rw [front, String.utf8ByteSize_append, String.utf8ByteSize_singleton, inductionHypothesis,
        List.length_cons, Nat.add_comm]
      cases digit <;> rfl

theorem spells_render (short : list.length ≤ 63) : Spells (render list) list :=
  ⟨rfl, short⟩

/-! ## Reading -/

private theorem digits_cons (digit : Bool) (rest : List Char) :
    digits (digitChar digit :: rest) = (digits rest).map (digit :: ·) := by
  cases digit <;> rfl

private theorem digits_append (list : List Bool) (rest : List Char) :
    digits (list.map digitChar ++ rest) = (digits rest).map (list ++ ·) := by
  induction list with
  | nil =>
      rw [List.map_nil, List.nil_append]
      cases digits rest <;> rfl
  | cons digit list inductionHypothesis =>
      rw [List.map_cons, List.cons_append, digits_cons, inductionHypothesis]
      cases digits rest <;> rfl

private theorem digits_cons_foreign {found : Char} (foreign : found ≠ '0' ∧ found ≠ '1')
    (rest : List Char) : digits (found :: rest) = .error (.invalidDigit found) := by
  rw [digits, if_neg foreign.1, if_neg foreign.2]

/-- A list of characters consists of digits, or has a first character that is none. -/
theorem exists_digits_or_foreign (characters : List Char) :
    (∃ list : List Bool, characters = list.map digitChar) ∨
      ∃ (list : List Bool) (found : Char) (rest : List Char),
        characters = list.map digitChar ++ found :: rest ∧ found ≠ '0' ∧ found ≠ '1' := by
  induction characters with
  | nil => exact .inl ⟨[], rfl⟩
  | cons c characters inductionHypothesis =>
      by_cases binary : ∃ digit, c = digitChar digit
      · obtain ⟨digit, rfl⟩ := binary
        rcases inductionHypothesis with ⟨list, rfl⟩ | ⟨list, found, rest, rfl, foreign⟩
        · exact .inl ⟨digit :: list, rfl⟩
        · exact .inr ⟨digit :: list, found, rest, rfl, foreign⟩
      · refine .inr ⟨[], c, characters, rfl, ?_, ?_⟩
        · rintro rfl
          exact binary ⟨false, rfl⟩
        · rintro rfl
          exact binary ⟨true, rfl⟩

theorem Spells.parse_eq (spells : Spells text list) : parse text = .ok list := by
  obtain ⟨rfl, short⟩ := spells
  have read := digits_append list []
  rw [List.append_nil] at read
  have fits : ¬(render list).utf8ByteSize > maximalLength := by
    rw [utf8ByteSize_render]
    exact Nat.not_lt.mpr short
  rw [parse, if_neg fits, toList_render, read]
  exact congrArg Except.ok (List.append_nil list)

theorem Malformed.parse_eq (malformed : Malformed text fault) : parse text = .error fault := by
  cases malformed with
  | tooWide long => exact if_pos long
  | invalidDigit short shown foreign =>
      have fits : ¬text.utf8ByteSize > maximalLength := Nat.not_lt.mpr short
      rw [parse, if_neg fits, shown, digits_append, digits_cons_foreign foreign]
      rfl

/-- A text is a bit string or malformed. -/
theorem spells_or_malformed (text : String) :
    (∃ list, Spells text list) ∨ ∃ fault, Malformed text fault := by
  by_cases long : 63 < text.utf8ByteSize
  · exact .inr ⟨_, .tooWide long⟩
  · have short := Nat.le_of_not_lt long
    rcases exists_digits_or_foreign text.toList with
      ⟨list, shown⟩ | ⟨list, found, rest, shown, foreign⟩
    · have same : text = render list := by rw [render, ← shown, String.ofList_toList]
      subst same
      rw [utf8ByteSize_render] at short
      exact .inl ⟨list, rfl, short⟩
    · exact .inr ⟨_, .invalidDigit short shown foreign⟩

/-- A text reads as the digits that it spells. -/
theorem parse_eq_ok_iff : parse text = .ok list ↔ Spells text list := by
  refine ⟨fun read => ?_, Spells.parse_eq⟩
  rcases spells_or_malformed text with ⟨other, spells⟩ | ⟨fault, malformed⟩
  · rw [spells.parse_eq] at read
    exact Except.ok.inj read ▸ spells
  · rw [malformed.parse_eq] at read
    cases read

end MiniatureMachine.BitString
