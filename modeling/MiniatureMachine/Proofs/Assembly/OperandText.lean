import Mathlib.Data.List.Basic
import MiniatureMachine.Assembly.Statement
import MiniatureMachine.Proofs.Text

/-!
Contract: the tokens of an operand text.

Owns:
- the maximal runs of characters that are no separators;
- the tokens, which are the runs and the one that a separator at the end announces;
- the tokens that the assembler finds as the only ones.

Which characters a token has does not matter here. It is decided where the token is put into
its slot.
-/

namespace MiniatureMachine.Statement

/-! ## Runs -/

/-- The maximal runs of characters that are no separators, from the left. A run goes on to
the end or to the next separator. -/
inductive Runs : List Char → List (List Char) → Prop
  | none {gap : List Char} (separates : ∀ c ∈ gap, isSeparator c = true) : Runs gap []
  | run {gap run rest : List Char} {runs : List (List Char)}
      (separates : ∀ c ∈ gap, isSeparator c = true) (present : run ≠ [])
      (solid : ∀ c ∈ run, isSeparator c = false)
      (stops : ∀ c ∈ rest.head?, isSeparator c = true) (later : Runs rest runs) :
      Runs (gap ++ (run ++ rest)) (run :: runs)

/-- The induction is on the length of the text: behind a run it is shorter. -/
theorem exists_runs (text : List Char) : ∃ runs, Runs text runs := by
  induction size : text.length using Nat.strongRecOn generalizing text with
  | ind length inductionHypothesis =>
      obtain ⟨gap, body, rfl, separates, begins⟩ := Text.exists_cut isSeparator text
      obtain ⟨run, rest, rfl, inRun, outside⟩ := Text.exists_cut (fun c => !isSeparator c) body
      simp only [Bool.not_eq_true', Bool.not_eq_false'] at inRun outside
      by_cases present : run = []
      · -- A body without a run would begin both with a separator and with none.
        subst present
        cases rest with
        | nil => exact ⟨[], by simpa using Runs.none separates⟩
        | cons c rest => cases (begins c rfl).symm.trans (outside c rfl)
      · have shorter : rest.length < length := by
          have positive := List.length_pos_iff.mpr present
          simp only [List.length_append] at size
          omega
        obtain ⟨runs, later⟩ := inductionHypothesis rest.length shorter rest rfl
        exact ⟨run :: runs, .run separates present inRun outside later⟩

def solidPieces (text : List Char) : List (List Char) :=
  (Text.pieces isSeparator text).filter fun piece => !piece.isEmpty

private theorem solidPieces_append_of_gap {gap : List Char}
    (separates : ∀ c ∈ gap, isSeparator c = true)
    (rest : List Char) : solidPieces (gap ++ rest) = solidPieces rest := by
  induction gap with
  | nil => rfl
  | cons c gap inductionHypothesis =>
      obtain ⟨first, others⟩ := List.forall_mem_cons.mp separates
      rw [← inductionHypothesis others, solidPieces, List.cons_append,
        Text.pieces_cons_separator _ first]
      rfl

private theorem solidPieces_append_of_solid {run rest : List Char} (present : run ≠ [])
    (solid : ∀ c ∈ run, isSeparator c = false) (stops : ∀ c ∈ rest.head?, isSeparator c = true) :
    solidPieces (run ++ rest) = run :: solidPieces rest := by
  have kept : run.isEmpty = false := by simpa using present
  unfold solidPieces
  cases rest with
  | nil =>
      rw [List.append_nil, Text.pieces_of_solid solid, List.filter_cons, kept]
      rfl
  | cons c rest =>
      have separates := stops c rfl
      rw [Text.pieces_append_separator rest separates solid, List.filter_cons, kept,
        Text.pieces_cons_separator rest separates]
      rfl

theorem Runs.solidPieces_eq {text : List Char} {runs : List (List Char)} (found : Runs text runs) :
    solidPieces text = runs := by
  induction found with
  | @none gap separates =>
      rw [← List.append_nil gap, solidPieces_append_of_gap separates]
      rfl
  | run separates present solid stops later inductionHypothesis =>
      rw [solidPieces_append_of_gap separates, solidPieces_append_of_solid present solid stops,
        inductionHypothesis]

private theorem runs_solidPieces (text : List Char) : Runs text (solidPieces text) := by
  obtain ⟨runs, found⟩ := exists_runs text
  rwa [found.solidPieces_eq]

/-! ## Tokens -/

/-- The tokens of an operand text: its runs, and behind a separator at its end one more
token, which is empty. -/
inductive Tokenizes (text : List Char) : List String → Prop
  | closed {runs : List (List Char)} (found : Runs text runs)
      (ends : ∀ c ∈ text.getLast?, isSeparator c = false) :
      Tokenizes text (runs.map String.ofList)
  | announced {runs : List (List Char)} {last : Char} (found : Runs text runs)
      (ends : text.getLast? = some last) (separates : isSeparator last = true) :
      Tokenizes text (runs.map String.ofList ++ [""])

theorem tokens_of_closed {text : String}
    (ends : ∀ c ∈ text.toList.getLast?, isSeparator c = false) :
    tokens text = (solidPieces text.toList).map String.ofList := by
  have closed : text.toList.getLast?.any isSeparator = false := by
    rw [Option.any_eq_false]
    exact ends
  simp [tokens, solidPieces, closed]

theorem tokens_of_announced {text : String} {last : Char} (ends : text.toList.getLast? = some last)
    (separates : isSeparator last = true) :
    tokens text = (solidPieces text.toList).map String.ofList ++ [""] := by
  have announced : text.toList.getLast?.any isSeparator = true := by
    rw [ends]
    exact separates
  simp [tokens, solidPieces, announced]

/-- Every text has tokens, and it has no others than the ones that the assembler finds. -/
theorem tokenizes_iff {text : String} {found : List String} :
    Tokenizes text.toList found ↔ tokens text = found := by
  constructor
  · intro tokenizes
    cases tokenizes with
    | closed found ends => rw [tokens_of_closed ends, found.solidPieces_eq]
    | announced found ends separates =>
        rw [tokens_of_announced ends separates, found.solidPieces_eq]
  · rintro rfl
    have runs := runs_solidPieces text.toList
    cases ends : text.toList.getLast? with
    | none =>
        have closed : ∀ c ∈ text.toList.getLast?, isSeparator c = false := by simp [ends]
        rw [tokens_of_closed closed]
        exact .closed runs closed
    | some last =>
        cases separates : isSeparator last with
        | true =>
            rw [tokens_of_announced ends separates]
            exact .announced runs ends separates
        | false =>
            have closed : ∀ c ∈ text.toList.getLast?, isSeparator c = false := by
              simp [ends, separates]
            rw [tokens_of_closed closed]
            exact .closed runs closed

/-- A text that ends in a separator has an empty token at the end. -/
theorem empty_mem_tokens {text : String} {last : Char} (ends : text.toList.getLast? = some last)
    (separates : isSeparator last = true) : "" ∈ tokens text := by
  rw [tokens_of_announced ends separates]
  exact List.mem_append_right _ List.mem_cons_self

end MiniatureMachine.Statement
