import MiniatureMachine.Files.Tree
import MiniatureMachine.Image

/-!
Contract: loading an image file.

Owns:
- the reasons for which a file gives no image;
- reading the file at a path as an image.
-/

namespace MiniatureMachine

inductive LoadError where
  /-- The file could not be read. -/
  | unreadable (error : FileError)
  /-- The text of the file is no image. -/
  | invalid (error : ImageError)
deriving DecidableEq, Repr

def LoadError.message : LoadError → String
  | .unreadable error => "cannot open file: " ++ error.message
  | .invalid error => error.message

namespace Load

def ofContent : Except FileError String → Except LoadError Image
  | .error error => .error (.unreadable error)
  | .ok text =>
      match Image.read text with
      | .ok image => .ok image
      | .error error => .error (.invalid error)

def run (path : String) (tree : FileTree) : Except LoadError Image :=
  ofContent (tree.readText path)

end Load

end MiniatureMachine
