import MiniatureMachine.Files.Path

/-!
Contract: a finite tree of files, seen from a working directory.

Owns:
- the locations of files and the resolution of a path to a location;
- reading and writing a file, and the ways in which either fails.

A directory exists when a file lies in it. The working directory, the
directories above it and the root always exist. A failing operation leaves the
tree as it is.
-/

namespace MiniatureMachine

inductive FileError where
  /-- The operating system refuses, with its error code and text. -/
  | system (code : Nat) (text : String)
  /-- The content is no text. -/
  | notText
deriving DecidableEq, Repr

namespace FileError

def notFound : FileError := .system 2 "No such file or directory"

def notDirectory : FileError := .system 20 "Not a directory"

/-- A directory stands where a file is needed. -/
def isDirectory : FileError := .system 21 "Is a directory"

def message : FileError → String
  | system code text => text ++ s!" (os error {code})"
  | notText => "stream did not contain valid UTF-8"

end FileError

/-- The names that lead from the working directory to a place. Steps upward come
first, as `..`; an absolute place begins with `/`. -/
abbrev Location := List String

namespace Location

def root : Location := ["/"]

/-- Whether a location is the working directory or lies above it. -/
def isOutward (location : Location) : Bool :=
  location == root || location.all (· == "..")

/-- The parent of a location. The root is its own parent. -/
def parent (location : Location) : Location :=
  if location = root then root
  else if location.isOutward then location ++ [".."]
  else location.dropLast

/-- The place that a piece of a path leads to. -/
def follow (location : Location) (piece : List Char) : Location :=
  if Path.isIdle piece then location
  else if Path.isParent piece then location.parent
  else location ++ [String.ofList piece]

end Location

structure FileTree where
  files : List (Location × ByteArray)

namespace FileTree

def content? (tree : FileTree) (location : Location) : Option ByteArray :=
  tree.files.lookup location

def isDirectory (tree : FileTree) (location : Location) : Bool :=
  location.isOutward ||
    tree.files.any fun file => location.isPrefixOf file.1 && location != file.1

/-- Insists that a location is a directory. -/
def enter (tree : FileTree) (location : Location) : Except FileError Unit :=
  if tree.isDirectory location then .ok ()
  else if (tree.content? location).isSome then .error .notDirectory
  else .error .notFound

/-- Follows pieces from a location. Each step starts in a directory. -/
def walk (tree : FileTree) (location : Location) :
    List (List Char) → Except FileError Location
  | [] => .ok location
  | piece :: rest =>
      match tree.enter location with
      | .ok () => tree.walk (location.follow piece) rest
      | .error error => .error error

/-- Where the pieces of a path lead. An empty first piece is the root. -/
def resolvePieces (tree : FileTree) : List (List Char) → Except FileError Location
  | [] :: rest => tree.walk Location.root rest
  | pieces => tree.walk [] pieces

/-- Where a path leads. The empty path leads nowhere. -/
def resolve (tree : FileTree) (path : String) : Except FileError Location :=
  if path.isEmpty then .error .notFound else tree.resolvePieces (Path.pieces path)

/-! ## Reading -/

def read (tree : FileTree) (path : String) : Except FileError ByteArray :=
  match tree.resolve path with
  | .error error => .error error
  | .ok location =>
      if tree.isDirectory location then .error .isDirectory
      else
        match tree.content? location with
        | some bytes => .ok bytes
        | none => .error .notFound

def textOfBytes (bytes : ByteArray) : Except FileError String :=
  match String.fromUTF8? bytes with
  | some text => .ok text
  | none => .error .notText

def readText (tree : FileTree) (path : String) : Except FileError String :=
  match tree.read path with
  | .ok bytes => textOfBytes bytes
  | .error error => .error error

/-! ## Writing -/

/-- The tree with a file at a location, new or with new content. -/
def put (tree : FileTree) (location : Location) (bytes : ByteArray) : FileTree :=
  if (tree.content? location).isSome then
    ⟨tree.files.map fun file => if file.1 = location then (location, bytes) else file⟩
  else
    ⟨tree.files ++ [(location, bytes)]⟩

/-- Where a file can be written. A slash at the end asks for a directory, which
no file can become, whether or not there is one. -/
def target (tree : FileTree) (path : String) : Except FileError Location :=
  if path.toList.getLast? = some '/' then
    match tree.resolvePieces (Path.withoutEndSlashes (Path.pieces path)).dropLast with
    | .error error => .error error
    | .ok location =>
        match tree.enter location with
        | .error error => .error error
        | .ok () => .error .isDirectory
  else
    match tree.resolve path with
    | .error error => .error error
    | .ok location =>
        if tree.isDirectory location then .error .isDirectory else .ok location

def writeText (tree : FileTree) (path text : String) : Except FileError FileTree :=
  match tree.target path with
  | .ok location => .ok (tree.put location text.toUTF8)
  | .error error => .error error

end FileTree

end MiniatureMachine
