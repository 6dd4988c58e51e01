import MiniatureMachine.Text.Blank
import MiniatureMachine.Text.Lines
import MiniatureMachine.Text.Decimal
import MiniatureMachine.Text.Quoted
import MiniatureMachine.Text.Padding
import MiniatureMachine.Isa.Instruction
import MiniatureMachine.Image
import MiniatureMachine.Machine.Console
import MiniatureMachine.Machine.Dump
import MiniatureMachine.Machine.Debugger
import MiniatureMachine.Machine.Session
import MiniatureMachine.Machine.Run
import MiniatureMachine.Assembly.Listing
import MiniatureMachine.CommandLine.Invocation
import MiniatureMachine.Main
import MiniatureMachine.Proofs.Effects
import MiniatureMachine.Proofs.Bits
import MiniatureMachine.Proofs.Isa.Nibbles
import MiniatureMachine.Proofs.Machine.Execution
import MiniatureMachine.Proofs.Machine.Step
import MiniatureMachine.Proofs.Machine.Invariant
import MiniatureMachine.Proofs.Machine.FailedStep
import MiniatureMachine.Proofs.Machine.Exchange
import MiniatureMachine.Proofs.Machine.Unattended
import MiniatureMachine.Proofs.Machine.Conversation
import MiniatureMachine.Proofs.Machine.Transparency
import MiniatureMachine.Proofs.Isa.Layout
import MiniatureMachine.Proofs.ImageText
import MiniatureMachine.Proofs.Isa.Shadowing
import MiniatureMachine.Proofs.Assembly.Written
import MiniatureMachine.Proofs.Machine.Reference
import MiniatureMachine.Proofs.Assembly.Meaning
import MiniatureMachine.Proofs.Assembly.Safety
import MiniatureMachine.Proofs.Machine.Memory
import MiniatureMachine.Proofs.Assembly.Printed
import MiniatureMachine.Proofs.Assembly.Disassembly
import MiniatureMachine.Proofs.Files.Build
import MiniatureMachine.Proofs.Assembly.Numbering
import MiniatureMachine.Proofs.Files.DefaultOutput
import MiniatureMachine.Proofs.Machine.Fetching
import MiniatureMachine.Proofs.Machine.UnreadInput
import MiniatureMachine.Proofs.Assembly.SourceLayout
import MiniatureMachine.Proofs.Assembly.Loading
import MiniatureMachine.Proofs.Machine.FaultMessage
import MiniatureMachine.Proofs.Machine.Attribution
import MiniatureMachine.Proofs.Machine.DebuggerProtocol
import MiniatureMachine.Proofs.Machine.Cancellation
import MiniatureMachine.Proofs.Machine.DebugQuestion
import MiniatureMachine.Proofs.ImageSpacing
import MiniatureMachine.Proofs.CommandLine.StandardInput
import MiniatureMachine.Proofs.CommandLine.ProgramRun
import MiniatureMachine.Proofs.Machine.Forward
import MiniatureMachine.Proofs.Assembly.Roundtrip
import MiniatureMachine.Proofs.Assembly.OperandText
import MiniatureMachine.Proofs.Isa.Fields
import MiniatureMachine.Proofs.Assembly.FieldEncoding
import MiniatureMachine.Proofs.Machine.NumberInput
import MiniatureMachine.Proofs.Machine.DoubleWord
import MiniatureMachine.Proofs.Machine.Arithmetic
import MiniatureMachine.Proofs.Machine.Footprint
import MiniatureMachine.Proofs.ImageReading
import MiniatureMachine.Proofs.BitString.Reading
import MiniatureMachine.Proofs.SignedBits
import MiniatureMachine.Proofs.BitString.LongWord
import MiniatureMachine.Proofs.BitString.Addition
import MiniatureMachine.Proofs.BitString.LongWordConversion
import MiniatureMachine.Proofs.BitString.TwosComplement
import MiniatureMachine.Proofs.BitString.Modulus
import MiniatureMachine.Proofs.Assembly.ProgramLines
import MiniatureMachine.Proofs.Assembly.Diagnosis
import MiniatureMachine.Proofs.Assembly.RowCut
import MiniatureMachine.Proofs.Assembly.ListingRows
import MiniatureMachine.Proofs.ByteOffset
import MiniatureMachine.Proofs.Assembly.WordWrap
import MiniatureMachine.Proofs.Columns
import MiniatureMachine.Proofs.Machine.DumpTable
import MiniatureMachine.Proofs.Machine.MemoryDump
import MiniatureMachine.Proofs.CommandLine.OptionItems
