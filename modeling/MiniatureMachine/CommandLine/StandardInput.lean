import MiniatureMachine.Files.Tree
import MiniatureMachine.Machine.Console

/-!
Contract: the console of a program whose operator is a byte stream.

Owns:
- cutting a byte stream into lines;
- the text of a line, without the carriage returns at its end;
- the console that answers with these lines, and the delivery of one more line
  to a console.

A line that encodes no text makes the read that reaches it fail.
-/

namespace MiniatureMachine.StandardInput

def newline : UInt8 := 10

/-- The lines of a byte stream, without the bytes that end them. Bytes after the
last newline are a line if there are any. -/
def byteLines (bytes : ByteArray) : List (List UInt8) :=
  let pieces := Text.pieces (· == newline) bytes.toList
  if pieces.getLast? = some [] then pieces.dropLast else pieces

def lineText? (bytes : List UInt8) : Option String :=
  (String.fromUTF8? ⟨bytes.toArray⟩).map fun text =>
    String.ofList (text.toList.reverse.dropWhile (· == '\r')).reverse

/-- The lines before the first that encodes no text. -/
def readable : List (List UInt8) → List String
  | [] => []
  | bytes :: rest =>
      match lineText? bytes with
      | some text => text :: readable rest
      | none => []

def failure : String :=
  FileError.notText.message

def console (bytes : ByteArray) : Console :=
  let lines := byteLines bytes
  let texts := readable lines
  let failing := if texts.length < lines.length then [(texts.length, failure)] else []
  Console.start (texts.map .line) { Schedule.calm with failingReads := failing }

def deliver (bytes : List UInt8) (console : Console) : Console :=
  match lineText? bytes with
  | some text => console.push (.line text)
  | none =>
      let failing := (console.reads + console.script.length, failure)
      { console with
        schedule := { console.schedule with
          failingReads := failing :: console.schedule.failingReads } }

end MiniatureMachine.StandardInput
