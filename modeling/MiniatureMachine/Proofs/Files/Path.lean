import Mathlib.Data.List.Infix
import MiniatureMachine.Files.Path
import MiniatureMachine.Proofs.Text

/-!
Contract: the pieces of the default output of a path.

Owns:
- the pieces of a name that is joined to a directory;
- the directory and the name of a path that ends in a name;
- the names that are their own stem with the extension `b`.

The idle pieces at the end of the directory are dropped when it is written down, so the
output does not have the pieces of its source, even where both lead to one directory.
-/

namespace MiniatureMachine

namespace Path

variable {path : String} {piece name : List Char} {front : List (List Char)}

structure IsName (piece : List Char) : Prop where
  notIdle : isIdle piece = false
  notParent : isParent piece = false

theorem IsName.ne_nil (isName : IsName piece) : piece ≠ [] := by
  rintro rfl
  cases isName.notIdle

/-! ## Idle pieces at the end -/

private theorem exists_dropIdle (pieces : List (List Char)) :
    ∃ idle, pieces = idle ++ dropIdle pieces ∧ (∀ piece ∈ idle, isIdle piece = true) ∧
      (pieces = [] ∨ (∃ piece, dropIdle pieces = [piece]) ∨
        ∃ piece later, dropIdle pieces = piece :: later ∧ isIdle piece = false) := by
  induction pieces with
  | nil => exact ⟨[], rfl, by simp, .inl rfl⟩
  | cons piece pieces inductionHypothesis =>
      cases pieces with
      | nil => exact ⟨[], rfl, by simp, .inr (.inl ⟨piece, rfl⟩)⟩
      | cons next more =>
          rw [dropIdle]
          by_cases idle : isIdle piece = true
          · obtain ⟨dropped, split, areIdle, shape⟩ := inductionHypothesis
            rw [if_pos idle]
            refine ⟨piece :: dropped, ?_, ?_, .inr (shape.resolve_left (List.cons_ne_nil _ _))⟩
            · rw [List.cons_append, ← split]
            · exact List.forall_mem_cons.mpr ⟨idle, areIdle⟩
          · rw [if_neg idle]
            exact ⟨[], rfl, by simp, .inr (.inr ⟨piece, _, rfl, Bool.not_eq_true _ ▸ idle⟩)⟩

/-- Settling keeps the first piece, and what it leaves is the root or ends in a piece that
has characters. -/
theorem exists_settle (pieces : List (List Char)) :
    ∃ idle, pieces = settle pieces ++ idle ∧ (∀ piece ∈ idle, isIdle piece = true) ∧
      (pieces = [] ∨ settle pieces = [[]] ∨
        ∃ before last, settle pieces = before ++ [last] ∧ last ≠ []) := by
  obtain ⟨idle, split, areIdle, shape⟩ := exists_dropIdle pieces.reverse
  refine ⟨idle.reverse, ?_, by simpa using areIdle, ?_⟩
  · rw [settle, ← List.reverse_append, ← split, List.reverse_reverse]
  · unfold settle
    rcases shape with none | ⟨piece, one⟩ | ⟨piece, later, more, notIdle⟩
    · exact .inl (List.reverse_eq_nil_iff.mp none)
    · rw [one]
      by_cases root : piece = []
      · exact .inr (.inl (by rw [root]; rfl))
      · exact .inr (.inr ⟨[], piece, rfl, root⟩)
    · rw [more]
      refine .inr (.inr ⟨later.reverse, piece, List.reverse_cons .., ?_⟩)
      rintro rfl
      cases notIdle

private theorem settle_concat (notIdle : isIdle piece = false) :
    settle (front ++ [piece]) = front ++ [piece] := by
  unfold settle
  rw [List.reverse_append, List.reverse_singleton, List.singleton_append]
  cases reversed : front.reverse with
  | nil =>
      rw [List.reverse_eq_nil_iff.mp reversed]
      rfl
  | cons next more =>
      rw [dropIdle, notIdle, ← reversed]
      simp

/-! ## Joining -/

private theorem getLast?_intercalate {before : List (List Char)} {last : List Char}
    (present : last ≠ []) : (['/'].intercalate (before ++ [last])).getLast? = last.getLast? := by
  induction before with
  | nil => rw [List.nil_append, List.intercalate_singleton]
  | cons first before inductionHypothesis =>
      have last? : ∃ c, last.getLast? = some c := by
        cases found : last.getLast? with
        | none => exact absurd (List.getLast?_eq_none_iff.mp found) present
        | some c => exact ⟨c, rfl⟩
      obtain ⟨c, isLast⟩ := last?
      obtain ⟨next, more, split⟩ := List.exists_cons_of_ne_nil
        (List.append_ne_nil_of_right_ne_nil before (List.cons_ne_nil last []))
      rw [List.cons_append, split, List.intercalate_cons_cons, ← split, List.getLast?_append,
        inductionHypothesis, isLast, Option.some_or]

private theorem pieces_intercalate {front : List (List Char)} (rest : List Char)
    (present : front ≠ [])
    (solid : ∀ piece ∈ front, ∀ c ∈ piece, (c == '/') = false) :
    Text.pieces (· == '/') (['/'].intercalate front ++ '/' :: rest) =
      front ++ Text.pieces (· == '/') rest := by
  induction front with
  | nil => exact absurd rfl present
  | cons first front inductionHypothesis =>
      obtain ⟨firstSolid, laterSolid⟩ := List.forall_mem_cons.mp solid
      cases front with
      | nil =>
          rw [List.intercalate_singleton, Text.pieces_append_separator rest rfl firstSolid]
          rfl
      | cons next more =>
          rw [List.intercalate_cons_cons, List.append_assoc, List.append_assoc,
            List.singleton_append, Text.pieces_append_separator _ rfl firstSolid,
            inductionHypothesis (List.cons_ne_nil _ _) laterSolid]
          rfl

/-- A name that is joined to a settled directory is one more piece. -/
theorem pieces_join {directory : List (List Char)} {name : String}
    (solid : ∀ piece ∈ directory, ∀ c ∈ piece, (c == '/') = false)
    (nameSolid : ∀ c ∈ name.toList, (c == '/') = false) :
    pieces (join (textOf (settle directory)) name) = settle directory ++ [name.toList] := by
  have lone : Text.pieces (· == '/') name.toList = [name.toList] := Text.pieces_of_solid nameSolid
  obtain ⟨idle, split, -, shape⟩ := exists_settle directory
  have keptSolid : ∀ piece ∈ settle directory, ∀ c ∈ piece, (c == '/') = false := by
    intro piece member
    exact solid piece (split ▸ List.mem_append_left idle member)
  rcases shape with rfl | root | ⟨before, last, isLast, present⟩
  · exact lone
  · rw [root]
    show Text.pieces (· == '/') ("/" ++ name).toList = _
    rw [String.toList_append]
    exact (Text.pieces_cons_separator name.toList rfl).trans (congrArg _ lone)
  · have ends : (['/'].intercalate (before ++ [last])).getLast? = last.getLast? :=
      getLast?_intercalate present
    rw [← isLast] at ends
    have notRoot : settle directory ≠ [[]] := by
      intro root
      rw [isLast] at root
      obtain ⟨-, empty⟩ := List.append_singleton_inj.mp (root.trans (List.nil_append [[]]).symm)
      exact present empty
    have notEmpty : ¬(String.ofList (['/'].intercalate (settle directory))).isEmpty = true := by
      intro empty
      rw [String.isEmpty_iff, String.ofList_eq_empty_iff] at empty
      rw [empty] at ends
      exact present (List.getLast?_eq_none_iff.mp ends.symm)
    have unslashed : ¬(['/'].intercalate (settle directory)).getLast? = some '/' := by
      rw [ends]
      intro slash
      have inLast := List.mem_of_getLast? slash
      exact absurd (keptSolid last (by rw [isLast]; simp) '/' inLast) (by decide)
    rw [textOf, if_neg notRoot, join, if_neg notEmpty, String.toList_ofList, if_neg unslashed,
      pieces]
    simp only [String.toList_append, String.toList_ofList, List.append_assoc]
    rw [← lone]
    exact pieces_intercalate _ (by simp [isLast]) keptSolid

/-! ## Paths that end in a name -/

theorem name?_of_pieces (ends : pieces path = front ++ [name]) (isName : IsName name) :
    name? path = some name := by
  simp [name?, ends, settle_concat isName.notIdle, isName.notIdle, isName.notParent]

private theorem directory_of_pieces (ends : pieces path = front ++ [name]) (isName : IsName name) :
    directory path = textOf (settle front) := by
  rw [directory, ends, settle_concat isName.notIdle, List.dropLast_concat]

/-! ## Image names -/

/-- A name is its own default output when it has a stem and the extension `b`. -/
theorem stem_append_eq_iff :
    stem name ++ ['.', 'b'] = name ↔ ∃ start, start ≠ [] ∧ name = start ++ ['.', 'b'] := by
  constructor
  · intro same
    refine ⟨stem name, ?_, same.symm⟩
    intro noStem
    rw [noStem] at same
    rw [← same] at noStem
    cases noStem
  · rintro ⟨start, present, rfl⟩
    have split : Text.beforeLast? (· == '.') (start ++ ['.', 'b']) = some start := by
      simp [Text.beforeLast?]
    unfold stem
    rw [split]
    cases start with
    | nil => exact absurd rfl present
    | cons c start => rfl

private theorem solid_of_mem_stem {c : Char} (member : c ∈ stem name) : c ∈ name := by
  unfold stem at member
  split at member
  · exact member
  · exact member
  · rename_i start split
    unfold Text.beforeLast? at split
    cases dropped : name.reverse.dropWhile fun c => !(c == '.') with
    | nil =>
        rw [dropped] at split
        cases split
    | cons dot rest =>
        rw [dropped] at split
        cases split
        have inReversed : c ∈ name.reverse.dropWhile fun c => !(c == '.') := by
          rw [dropped]
          exact List.mem_cons_of_mem _ (List.mem_reverse.mp member)
        exact List.mem_reverse.mp ((List.dropWhile_sublist _).subset inReversed)

/-- The name of a path is a stem with the extension `b`. -/
def HasImageName (path : String) : Prop :=
  ∃ stem, stem ≠ [] ∧ name? path = some (stem ++ ['.', 'b'])

/-- The default output of a path that ends in a name. -/
theorem pieces_defaultOutput (ends : pieces path = front ++ [name]) (isName : IsName name) :
    pieces (defaultOutput path) = settle front ++ [stem name ++ ['.', 'b']] := by
  have solid : ∀ piece ∈ front ++ [name], ∀ c ∈ piece, (c == '/') = false := by
    rw [← ends]
    exact fun piece member => Text.solid_of_mem_pieces member
  rw [List.forall_mem_append, List.forall_mem_singleton] at solid
  obtain ⟨frontSolid, nameSolid⟩ := solid
  unfold defaultOutput
  rw [name?_of_pieces ends isName, directory_of_pieces ends isName]
  dsimp only
  rw [pieces_join frontSolid]
  · simp
  · intro c member
    rw [String.toList_append, String.toList_ofList, List.mem_append] at member
    rcases member with inStem | inExtension
    · exact nameSolid c (solid_of_mem_stem inStem)
    · obtain rfl | rfl : c = '.' ∨ c = 'b' := by simpa using inExtension
      all_goals decide

end Path

end MiniatureMachine
