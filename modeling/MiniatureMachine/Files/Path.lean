import MiniatureMachine.Text.Lines

/-!
Contract: path names and the default name of an image file.

Owns:
- the pieces of a path and which of them count;
- the directory, the name and the stem of a path;
- the path of the image that belongs to a source path.

A piece that is empty or a dot leads nowhere. At the end of a path such pieces
do not count, but the first piece of a path always does: it tells an absolute
path from a relative one.
-/

namespace MiniatureMachine.Path

/-- The pieces of a path between its slashes. -/
def pieces (path : String) : List (List Char) :=
  Text.pieces (· == '/') path.toList

def isIdle (piece : List Char) : Bool :=
  piece == [] || piece == ['.']

def isParent (piece : List Char) : Bool :=
  piece == ['.', '.']

/-- Drops idle pieces from the front, but never the last piece of the list. -/
def dropIdle : List (List Char) → List (List Char)
  | [] => []
  | [first] => [first]
  | piece :: next :: more =>
      if isIdle piece then dropIdle (next :: more) else piece :: next :: more

/-- The pieces of a path without the idle ones at its end. -/
def settle (pieces : List (List Char)) : List (List Char) :=
  (dropIdle pieces.reverse).reverse

def withoutEndSlashes (pieces : List (List Char)) : List (List Char) :=
  (pieces.reverse.dropWhile List.isEmpty).reverse

/-- The text of a list of pieces. A lone empty piece is the root. -/
def textOf (pieces : List (List Char)) : String :=
  if pieces = [[]] then "/" else String.ofList (['/'].intercalate pieces)

def name? (path : String) : Option (List Char) :=
  ((settle (pieces path)).getLast?).filter fun piece => !isIdle piece && !isParent piece

def directory (path : String) : String :=
  textOf (settle (settle (pieces path)).dropLast)

/-- A name without its last extension. A dot at the start begins none. -/
def stem (name : List Char) : List Char :=
  match Text.beforeLast? (· == '.') name with
  | none | some [] => name
  | some start => start

def join (directory name : String) : String :=
  if directory.isEmpty then name
  else if directory.toList.getLast? = some '/' then directory ++ name
  else directory ++ "/" ++ name

/-- Where the image of a source goes when no output is given: beside the source,
under its stem with the extension `b`. -/
def defaultOutput (source : String) : String :=
  let stem :=
    match name? source with
    | some name => String.ofList (stem name)
    | none => "out"
  join (directory source) (stem ++ ".b")

end MiniatureMachine.Path
