import MiniatureMachine.Assembly.Program
import MiniatureMachine.Text.Padding

/-!
Contract: the printed listing of an assembled program.

Owns:
- the banners of success and failure;
- the rows and their columns;
- the cut of a row that is too long.

A row that does not fit is cut to the first line of a greedy word wrap: after
the last word that fits, or in the middle of a word when the first one is
already too long.
-/

namespace MiniatureMachine.Listing

def rowWidth : Nat := 76

/-- The width of the encoding column when every line has an encoding. -/
def encodingWidth : Nat := 27

/-- The width of the encoding column when a line shows a marker. -/
def markerWidth : Nat := 31

/-! ## Cutting a row -/

/-- The first line of a text wrapped at a width. -/
def firstLine (width : Nat) (text : List Char) : List Char :=
  match text.drop width with
  | [] => Text.trimEnd text
  | next :: _ =>
      let head := text.take width
      if Text.isBlank next then
        Text.trimEnd head
      else
        match Text.beforeLast? Text.isBlank head with
        | none => head
        | some start =>
            let words := Text.trimEnd start
            if words.isEmpty then head else words

/-! ## Rows -/

def indexWidth (program : AssembledProgram) : Nat :=
  ((program.lines.map fun line => (toString line.index).length).max?).getD 1

def fullRow (indexWidth textWidth : Nat) (line : AssembledLine) : String :=
  Text.padEnd indexWidth (toString line.index) ++ " : " ++
    Text.padEnd textWidth line.text ++ line.source

def row (indexWidth textWidth : Nat) (line : AssembledLine) : String :=
  String.ofList (firstLine rowWidth (fullRow indexWidth textWidth line).toList)

/-! ## Banners -/

def rule : String :=
  "----------------------"

def successBanner : String :=
  "\n" ++ rule ++ "\n| ASSEMBLY SUCCESSFUL |\n" ++ rule ++ "\n\n"

def failureBanner : String :=
  "\n***** ASSEMBLY TERMINATED UNSUCCESSFULLY *****\n" ++
    "              ASSEMBLY RESULTS:\n\n"

def banner (program : AssembledProgram) : String :=
  if program.isValid then successBanner else failureBanner

def textWidth (program : AssembledProgram) : Nat :=
  if program.isValid then encodingWidth else markerWidth

def rows (program : AssembledProgram) : List String :=
  let indexWidth := indexWidth program
  let textWidth := textWidth program
  program.lines.map (row indexWidth textWidth)

end MiniatureMachine.Listing

namespace MiniatureMachine

def AssembledProgram.listing (program : AssembledProgram) : String :=
  if program.lines.isEmpty then
    Listing.failureBanner ++ "                <EMPTY FILE>\n\n"
  else
    Listing.banner program ++
      String.join ((Listing.rows program).map (· ++ "\n")) ++ "\n"

end MiniatureMachine
