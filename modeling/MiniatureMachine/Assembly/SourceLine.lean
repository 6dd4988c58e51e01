import MiniatureMachine.Text.Blank
import MiniatureMachine.Text.Lines

/-!
Contract: the program lines of a source text.

Owns:
- a program line with its place in the source;
- the selection of the program lines of a text.

A line counts as a program line when something other than blanks stands on it
and its first such character is not `#`.
-/

namespace MiniatureMachine

/-- A program line without the blanks around it. -/
structure SourceLine where
  text : String
  /-- The line of the source text, from one. -/
  number : Nat
deriving DecidableEq, Repr

namespace SourceLine

def isProgramText (text : List Char) : Bool :=
  match text with
  | [] => false
  | c :: _ => c != '#'

def ofLine? (number : Nat) (line : List Char) : Option SourceLine :=
  let text := Text.trim line
  if isProgramText text then some ⟨String.ofList text, number⟩ else none

def program (source : String) : List SourceLine :=
  (Text.lines source.toList).zipIdx.filterMap fun entry =>
    ofLine? (entry.2 + 1) entry.1

end SourceLine

end MiniatureMachine
