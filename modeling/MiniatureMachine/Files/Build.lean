import MiniatureMachine.Assembly.Program
import MiniatureMachine.Files.Tree

/-!
Contract: assembling a source file to an image file.

Owns:
- the reasons for which no image file is written;
- the order of reading, checking and writing.

The source is read and checked as a whole before anything is written, so a
program with an error leaves an older image as it is.
-/

namespace MiniatureMachine

inductive BuildError where
  /-- A file could not be read or written. -/
  | inaccessible (path : String) (error : FileError)
  /-- The source has no program line. -/
  | empty
  /-- A line of the program failed. -/
  | lines (program : AssembledProgram)

def BuildError.message : BuildError → String
  | .inaccessible path error => "cannot access " ++ path ++ ": " ++ error.message
  | .empty => "empty file"
  | .lines program =>
      s!"assembly failed with {program.diagnostics.length} error(s)"

namespace Build

/-- The program of a source text with its image text. -/
def ofText (dialect : Dialect) (source : String) :
    Except BuildError (AssembledProgram × String) :=
  let program := AssembledProgram.ofSource dialect source
  if program.lines.isEmpty then .error .empty
  else
    match program.imageText? with
    | some text => .ok (program, text)
    | none => .error (.lines program)

def ofContent (dialect : Dialect) (source : String) :
    Except FileError String → Except BuildError (AssembledProgram × String)
  | .ok content => ofText dialect content
  | .error error => .error (.inaccessible source error)

/-- Assembles the file at a path to an image at another. The second component is
the tree that is left. -/
def run (dialect : Dialect) (source output : String) (tree : FileTree) :
    Except BuildError AssembledProgram × FileTree :=
  match ofContent dialect source (tree.readText source) with
  | .error error => (.error error, tree)
  | .ok (program, text) =>
      match tree.writeText output text with
      | .error error => (.error (.inaccessible output error), tree)
      | .ok written => (.ok program, written)

end Build

end MiniatureMachine
