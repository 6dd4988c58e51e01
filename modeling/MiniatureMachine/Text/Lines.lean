/-!
Contract: cutting a text into pieces and into lines.

Owns:
- `pieces`, the parts between separators, empty ones included;
- `beforeLast?`, what stands before the last separator;
- `lines`, the newline-terminated parts of a text, where a carriage return
  directly before the newline belongs to the terminator.

A last line without a newline is a line when it is not empty, and keeps a
carriage return at its end.
-/

namespace MiniatureMachine.Text

/-- The parts of a list between the separators. There is always one more part
than there are separators, so the result is never empty. -/
def pieces {α : Type} (isSeparator : α → Bool) : List α → List (List α)
  | [] => [[]]
  | c :: rest =>
      if isSeparator c then
        [] :: pieces isSeparator rest
      else
        match pieces isSeparator rest with
        | [] => [[c]]
        | piece :: more => (c :: piece) :: more

theorem pieces_ne_nil {α : Type} (isSeparator : α → Bool) (text : List α) :
    pieces isSeparator text ≠ [] := by
  cases text with
  | nil => simp [pieces]
  | cons c rest =>
      unfold pieces
      split
      · simp
      · split <;> simp

/-- A separator closes the piece before it. -/
theorem pieces_cons_separator {α : Type} {isSeparator : α → Bool} {c : α}
    (rest : List α) (separator : isSeparator c = true) :
    pieces isSeparator (c :: rest) = [] :: pieces isSeparator rest := by
  simp [pieces, separator]

/-- What stands before the last separator of a list, if it has one. -/
def beforeLast? {α : Type} (isSeparator : α → Bool) (text : List α) : Option (List α) :=
  match text.reverse.dropWhile fun c => !isSeparator c with
  | [] => none
  | _ :: rest => some rest.reverse

/-- A text without its one trailing carriage return, if it has one. -/
def dropCarriageReturn (text : List Char) : List Char :=
  if text.getLast? = some '\r' then text.dropLast else text

/-- Reads newline-separated pieces as lines: each piece but the last was closed
by a newline, and an empty last piece is no line. -/
def linesOfPieces : List (List Char) → List (List Char)
  | [] => []
  | [last] => if last.isEmpty then [] else [last]
  | piece :: next :: more => dropCarriageReturn piece :: linesOfPieces (next :: more)

/-- The lines of a text, without their terminators. -/
def lines (text : List Char) : List (List Char) :=
  linesOfPieces (pieces (· == '\n') text)

@[simp] theorem lines_nil : lines [] = [] := rfl

end MiniatureMachine.Text
