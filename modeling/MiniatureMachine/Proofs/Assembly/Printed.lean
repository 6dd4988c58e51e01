import Mathlib.Data.List.Basic
import MiniatureMachine.Assembly.SourceLine
import MiniatureMachine.Proofs.Assembly.Grammar

/-!
Contract: program lines that are printed read back.

Owns:
- tokens, and the operand text that they make up with commas between them;
- the parts of a printed line, its reading, and what else the readers make of the line.
-/

namespace MiniatureMachine.Statement

variable {tokens : List (List Char)}

/-! ## Operand texts -/

theorem toNat_of_isOperandChar {c : Char} (known : isOperandChar c = true) :
    44 < c.toNat ∧ c.toNat < 127 := by
  rw [isOperandChar, Bool.or_eq_true] at known
  rcases known with letter | digit
  · have bounds : "-rRxX".toList.all fun c => 44 < c.toNat && c.toNat < 127 := by decide
    simpa using List.all_eq_true.mp bounds c (List.contains_iff_mem.mp letter)
  · have bounds := Text.toNat_of_isHexDigit digit
    omega

private theorem isSeparator_of_isOperandChar {c : Char} (known : isOperandChar c = true) :
    isSeparator c = false := by
  obtain ⟨above, below⟩ := toNat_of_isOperandChar known
  have solid : Text.isBlank c = false := Text.isBlank_of_visible (by omega) below
  have notComma : c ≠ ',' := by
    rintro rfl
    exact absurd above (by decide)
  simp [isSeparator, solid, notComma]

/-- A token is not empty and has the characters of operands only. -/
structure IsToken (token : List Char) : Prop where
  present : token ≠ []
  known : ∀ c ∈ token, isOperandChar c = true

def joined (tokens : List (List Char)) : List Char :=
  [',', ' '].intercalate tokens

theorem joined_cons_cons (token next : List Char) (tokens : List (List Char)) :
    joined (token :: next :: tokens) = token ++ ',' :: ' ' :: joined (next :: tokens) := by
  unfold joined
  rw [List.intercalate_cons_cons, List.append_assoc]
  rfl

theorem joined_singleton (token : List Char) : joined [token] = token :=
  List.intercalate_singleton

private theorem joined_ne_nil {token : List Char} (present : token ≠ [])
    (tokens : List (List Char)) :
    joined (token :: tokens) ≠ [] := by
  cases tokens with
  | nil => rwa [joined_singleton]
  | cons next tokens => simp [joined_cons_cons]

-- The space after a comma makes a piece of its own, which is empty and does not count.
private theorem solidPieces_joined (areTokens : ∀ token ∈ tokens, IsToken token) :
    ((Text.pieces isSeparator (joined tokens)).filter fun piece => !piece.isEmpty) = tokens := by
  induction tokens with
  | nil => rfl
  | cons token tokens inductionHypothesis =>
      obtain ⟨first, others⟩ := List.forall_mem_cons.mp areTokens
      have solid : ∀ c ∈ token, isSeparator c = false :=
        fun c member => isSeparator_of_isOperandChar (first.known c member)
      have present : token.isEmpty = false := by simpa using first.present
      cases tokens with
      | nil =>
          rw [joined_singleton, Text.pieces_of_solid solid, List.filter_cons, present]
          rfl
      | cons next tokens =>
          rw [joined_cons_cons, Text.pieces_append_separator _ rfl solid,
            Text.pieces_cons_separator _ (by decide), List.filter_cons, present,
            List.filter_cons, inductionHypothesis others]
          rfl

theorem mem_joined (areTokens : ∀ token ∈ tokens, IsToken token) {c : Char}
    (member : c ∈ joined tokens) : isOperandChar c = true ∨ c = ',' ∨ c = ' ' := by
  induction tokens with
  | nil => cases member
  | cons token tokens inductionHypothesis =>
      obtain ⟨first, others⟩ := List.forall_mem_cons.mp areTokens
      cases tokens with
      | nil =>
          rw [joined_singleton] at member
          exact .inl (first.known c member)
      | cons next tokens =>
          simp only [joined_cons_cons, List.mem_append, List.mem_cons] at member
          rcases member with inToken | comma | space | later
          · exact .inl (first.known c inToken)
          · exact .inr (.inl comma)
          · exact .inr (.inr space)
          · exact inductionHypothesis others later

/-- An operand text is empty or has operand characters at both of its ends. -/
theorem ends_joined (areTokens : ∀ token ∈ tokens, IsToken token) :
    (∀ c ∈ (joined tokens).head?, isOperandChar c = true) ∧
      ∀ c ∈ (joined tokens).getLast?, isOperandChar c = true := by
  induction tokens with
  | nil => exact ⟨nofun, nofun⟩
  | cons token tokens inductionHypothesis =>
      obtain ⟨first, others⟩ := List.forall_mem_cons.mp areTokens
      have begins : ∀ c ∈ token.head?, isOperandChar c = true :=
        fun c member => first.known c (List.mem_of_mem_head? member)
      cases tokens with
      | nil =>
          rw [joined_singleton]
          exact ⟨begins, fun c member => first.known c (List.mem_of_mem_getLast? member)⟩
      | cons next tokens =>
          have later : joined (next :: tokens) ≠ [] :=
            joined_ne_nil (others next List.mem_cons_self).present tokens
          rw [joined_cons_cons, List.head?_append_of_ne_nil _ first.present,
            List.getLast?_append_of_ne_nil _ (List.cons_ne_nil _ _),
            List.getLast?_cons_of_ne_nil (List.cons_ne_nil _ _),
            List.getLast?_cons_of_ne_nil later]
          exact ⟨begins, (inductionHypothesis others).2⟩

/-- The tokens of an operand text are those that it is put together from. -/
theorem tokens_joined (areTokens : ∀ token ∈ tokens, IsToken token) :
    Statement.tokens (String.ofList (joined tokens)) = tokens.map String.ofList := by
  have closed : (joined tokens).getLast?.any isSeparator = false := by
    rw [Option.any_eq_false]
    intro c last
    exact isSeparator_of_isOperandChar ((ends_joined areTokens).2 c last)
  unfold Statement.tokens
  simp only [String.toList_ofList, solidPieces_joined areTokens, closed, Bool.false_eq_true,
    if_false, List.append_nil]

private theorem head?_joined (areTokens : ∀ token ∈ tokens, IsToken token) :
    (joined tokens).head? ≠ some ',' := by
  intro comma
  exact absurd ((ends_joined areTokens).1 ',' comma) (by decide)

private theorem known_joined (areTokens : ∀ token ∈ tokens, IsToken token) :
    ∀ c ∈ joined tokens, isOperandChar c = true ∨ isSeparator c = true := by
  intro c member
  rcases mem_joined areTokens member with known | rfl | rfl
  · exact .inl known
  · exact .inr (by decide)
  · exact .inr (by decide)

private theorem trim_joined (areTokens : ∀ token ∈ tokens, IsToken token) :
    Text.trim (joined tokens) = joined tokens := by
  have solid : ∀ c, isOperandChar c = true → Text.isBlank c = false := by
    intro c known
    obtain ⟨above, below⟩ := toNat_of_isOperandChar known
    exact Text.isBlank_of_visible (by omega) below
  obtain ⟨begins, ends⟩ := ends_joined areTokens
  rw [Text.trim, Text.trimStart_of_head fun c first => solid c (begins c first),
    Text.trimEnd_of_last fun c last => solid c (ends c last)]

/-! ## Lines -/

/-- What stands after the name of an operation. -/
def tail (tokens : List (List Char)) : List Char :=
  if tokens = [] then [] else ' ' :: joined tokens

private theorem trim_tail (areTokens : ∀ token ∈ tokens, IsToken token) :
    Text.trim (tail tokens) = joined tokens := by
  unfold tail
  split
  · rename_i none
    rw [none]
    rfl
  · exact trim_joined areTokens

private theorem uncommented_tail (areTokens : ∀ token ∈ tokens, IsToken token) :
    '#' ∉ tail tokens := by
  unfold tail
  split
  · exact List.not_mem_nil
  · rw [List.mem_cons]
    rintro (space | member)
    · exact absurd space (by decide)
    · rcases mem_joined areTokens member with known | comma | space
      · exact absurd known (by decide)
      · exact absurd comma (by decide)
      · exact absurd space (by decide)

private theorem closed_tail (tokens : List (List Char)) :
    ∀ c ∈ (tail tokens).head?, c.isLower = false := by
  unfold tail
  split
  · exact nofun
  · rintro c ⟨⟩
    decide

structure Parts where
  number : List Char
  name : List Char
  tokens : List (List Char)
  numbered : number ≠ []
  digits : ∀ c ∈ number, c.isDigit = true
  named : name ≠ []
  lower : ∀ c ∈ name, c.isLower = true
  areTokens : ∀ token ∈ tokens, IsToken token

namespace Parts

variable (parts : Parts)

def operationText : List Char :=
  parts.name ++ tail parts.tokens

def line : List Char :=
  parts.number ++ ' ' :: parts.operationText

def reading : Reading where
  number := parts.number
  gap := [' ']
  operation :=
    { name := parts.name
      tail := tail parts.tokens
      body := tail parts.tokens
      operands := joined parts.tokens
      named := parts.named
      lower := parts.lower
      closed := closed_tail parts.tokens
      isBody := .whole (uncommented_tail parts.areTokens)
      isTrim := Text.trim_eq_iff.mp (trim_tail parts.areTokens)
      noComma := head?_joined parts.areTokens
      known := known_joined parts.areTokens }
  numbered := parts.numbered
  digits := parts.digits
  spaced := List.cons_ne_nil _ _
  blanks := List.forall_mem_singleton.mpr Text.isBlank_space

/-- A printed line is read as its parts. -/
theorem parse_line :
    parse (String.ofList parts.line) =
      .ok ⟨String.ofList parts.number, String.ofList parts.name,
        String.ofList (joined parts.tokens)⟩ :=
  parts.reading.parse_line

private theorem le_toNat_of_mem_line {c : Char} (member : c ∈ parts.line) : 32 ≤ c.toNat := by
  unfold line operationText tail at member
  rw [List.mem_append, List.mem_cons, List.mem_append] at member
  rcases member with inNumber | rfl | inName | inTail
  · have bounds := Text.toNat_of_isDigit (parts.digits c inNumber)
    omega
  · decide
  · have bounds := Text.toNat_of_isLower (parts.lower c inName)
    omega
  · split at inTail
    · cases inTail
    · rw [List.mem_cons] at inTail
      rcases inTail with rfl | inOperands
      · decide
      · rcases mem_joined parts.areTokens inOperands with known | rfl | rfl
        · have bounds := toNat_of_isOperandChar known
          omega
        · decide
        · decide

private theorem isBlank_of_getLast? {c : Char} (last : c ∈ parts.line.getLast?) :
    Text.isBlank c = false := by
  have present : parts.operationText ≠ [] := List.append_ne_nil_of_left_ne_nil parts.named _
  rw [line, List.getLast?_append_of_ne_nil _ (List.cons_ne_nil _ _),
    List.getLast?_cons_of_ne_nil present, operationText] at last
  unfold tail at last
  split at last
  · rw [List.append_nil] at last
    exact Text.isBlank_of_isLower (parts.lower c (List.mem_of_mem_getLast? last))
  · rename_i some
    obtain ⟨token, tokens, split⟩ := List.exists_cons_of_ne_nil some
    have isToken : IsToken token := parts.areTokens token (by simp [split])
    have later : joined parts.tokens ≠ [] := split ▸ joined_ne_nil isToken.present tokens
    rw [List.getLast?_append_of_ne_nil _ (List.cons_ne_nil _ _),
      List.getLast?_cons_of_ne_nil later] at last
    obtain ⟨above, below⟩ :=
      toNat_of_isOperandChar ((ends_joined parts.areTokens).2 c last)
    exact Text.isBlank_of_visible (by omega) below

private theorem isBlank_of_head? {c : Char} (first : c ∈ parts.line.head?) :
    Text.isBlank c = false := by
  rw [line, List.head?_append_of_ne_nil _ parts.numbered] at first
  have bounds := Text.toNat_of_isDigit (parts.digits c (List.mem_of_mem_head? first))
  exact Text.isBlank_of_visible (by omega) (by omega)

private theorem trim_line : Text.trim parts.line = parts.line := by
  rw [Text.trim, Text.trimStart_of_head fun c first => parts.isBlank_of_head? first,
    Text.trimEnd_of_last fun c last => parts.isBlank_of_getLast? last]

theorem isLine_line : Text.IsLine parts.line where
  present := List.append_ne_nil_of_left_ne_nil parts.numbered _
  unbroken := by
    intro c member
    have visible := parts.le_toNat_of_mem_line member
    rw [beq_eq_false_iff_ne]
    rintro rfl
    exact absurd visible (by decide)
  noReturn := by
    intro last
    have visible := parts.le_toNat_of_mem_line (List.mem_of_getLast? last)
    exact absurd visible (by decide)

theorem ofLine?_line (number : Nat) :
    SourceLine.ofLine? number parts.line = some ⟨String.ofList parts.line, number⟩ := by
  have isProgram : SourceLine.isProgramText parts.line = true := by
    obtain ⟨c, rest, split⟩ := List.exists_cons_of_ne_nil parts.numbered
    have digit : c.isDigit = true := parts.digits c (by simp [split])
    rw [line, split, List.cons_append, SourceLine.isProgramText, bne_iff_ne]
    exact Text.ne_of_isDigit digit (by decide)
  unfold SourceLine.ofLine?
  simp only [trim_line, isProgram, if_true]

end Parts

end MiniatureMachine.Statement
