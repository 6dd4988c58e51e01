import MiniatureMachine.Assembly.Dialect
import MiniatureMachine.Assembly.Encoding
import MiniatureMachine.Assembly.SourceLine
import MiniatureMachine.Image

/-!
Contract: the assembly of whole programs.

Owns:
- the encoding of one line at its place in the program;
- an assembled program, its diagnostics and its image text.

A line that fails keeps its error and assembly goes on, so all errors of a
program are known at once. There is an image text only when no line failed. The
line number is checked last: a line reports it only when nothing else is wrong.
-/

namespace MiniatureMachine

structure AssembledLine where
  /-- The place of the line among the program lines, from zero. -/
  index : Nat
  /-- The line of the source text, from one. -/
  sourceLine : Nat
  /-- The image line, or what is wrong. -/
  encoding : Except LineError String
  /-- The text of the line. -/
  source : String

namespace AssembledLine

/-- The image line, or the marker of the error. -/
def text (line : AssembledLine) : String :=
  match line.encoding with
  | .ok bits => bits
  | .error error => error.marker

def isEncoded (line : AssembledLine) : Bool :=
  match line.encoding with
  | .ok _ => true
  | .error _ => false

def diagnostic? (line : AssembledLine) : Option Diagnostic :=
  match line.encoding with
  | .ok _ => none
  | .error error => some ⟨line.index, line.sourceLine, error, line.source⟩

def encode (dialect : Dialect) (index : Nat) (text : String) : Except LineError String := do
  let statement ← Statement.parse text
  match dialect.resolve? statement.operation with
  | none => throw (.unknownOperation statement.operation)
  | some operation =>
      let encoding ← Encoding.ofOperands operation statement.operands
      if Text.decimal? statement.number.toList = some index then
        return encoding
      else
        throw (.badLineNumber statement.number index)

def ofSource (dialect : Dialect) (index : Nat) (line : SourceLine) : AssembledLine :=
  { index := index
    sourceLine := line.number
    encoding := encode dialect index line.text
    source := line.text }

end AssembledLine

structure AssembledProgram where
  lines : List AssembledLine

namespace AssembledProgram

def ofLines (dialect : Dialect) (lines : List SourceLine) : AssembledProgram :=
  ⟨lines.zipIdx.map fun entry => AssembledLine.ofSource dialect entry.2 entry.1⟩

def ofSource (dialect : Dialect) (source : String) : AssembledProgram :=
  ofLines dialect (SourceLine.program source)

def isValid (program : AssembledProgram) : Bool :=
  !program.lines.isEmpty && program.lines.all AssembledLine.isEncoded

def diagnostics (program : AssembledProgram) : List Diagnostic :=
  program.lines.filterMap AssembledLine.diagnostic?

def imageText? (program : AssembledProgram) : Option String :=
  if program.isValid then
    some (Image.write (program.lines.map AssembledLine.text))
  else
    none

end AssembledProgram

end MiniatureMachine
