import MiniatureMachine.Machine.Fault

/-!
Contract: what is printed about a fault.

Owns:
- what a context tells about the word at an address;
- the lines of a context and of a report;
- the printed context and the printed report as these lines.

The lines are spelled out here once more, apart from the functions that print. A report that
leaves one of them out does not fit.
-/

namespace MiniatureMachine

namespace FaultContext

/-- The context tells what the word at an address decodes to. -/
structure Describes (context : FaultContext) (address : Nat) (word : Word) : Prop where
  pc : context.pc = address
  instruction : context.instruction = (Instruction.decode word).operation.name
  arguments : context.arguments = ", ".intercalate (word.groups.drop 1)
  disassembly : context.disassembly = (Instruction.decode word).text

theorem describes_ofWord (address : Nat) (word : Word) :
    (ofWord address word).Describes address word :=
  ⟨rfl, rfl, rfl, rfl⟩

def lines (context : FaultContext) : List String :=
  [s!"  Program Counter: {context.pc}",
    s!"  Instruction: {context.instruction}   Arguments: {context.arguments}",
    s!"  Translation: {context.disassembly}"]

theorem text_append_newline (context : FaultContext) :
    context.text ++ "\n" = String.join (context.lines.map (· ++ "\n")) := by
  unfold text lines
  simp only [List.map_cons, List.map_nil, String.join_cons, String.join_nil, String.append_assoc,
    String.append_empty]
  rfl

end FaultContext

namespace FaultReport

/-- The lines of a printed report. The message of a fault may have two lines itself. -/
def lines (report : FaultReport) : List String :=
  (report.context?.elim [] fun context => "" :: context.lines) ++ ["", report.message] ++
    if report.code ∈ [.interrupted, .endOfInput, .aborted] then []
    else ["Halting program execution."]

private theorem ending_append_newline (code : FaultCode) :
    (if code.isOperatorInitiated then "" else "\nHalting program execution.") ++ "\n" =
      "\n" ++ String.join ((if code ∈ [.interrupted, .endOfInput, .aborted] then []
        else ["Halting program execution."]).map (· ++ "\n")) := by
  cases code <;> rfl

theorem text_append_newline (report : FaultReport) :
    report.text ++ "\n" = String.join (report.lines.map (· ++ "\n")) := by
  unfold text lines
  cases report.context? with
  | none =>
      simp only [Option.elim_none, List.nil_append, List.map_append, List.map_cons, List.map_nil,
        String.join_append, String.join_cons, String.join_nil, String.append_assoc,
        String.append_empty, String.empty_append, ending_append_newline]
  | some context =>
      have shown := context.text_append_newline
      simp only [Option.elim_some, List.map_append, List.map_cons, List.map_nil,
        String.join_append, String.join_cons, String.join_nil, String.append_assoc,
        String.append_empty, String.empty_append, ending_append_newline, ← shown]

example :
    (Fault.report ⟨.divisionByZero 4, some (.ofWord 4 0x9312)⟩).lines =
      ["", "  Program Counter: 4", "  Instruction: div   Arguments: 0011, 0001, 0010",
        "  Translation: div r3, r1, r2", "", "Division by Zero Error at pc 4.",
        "Halting program execution."] := by
  decide +kernel

end FaultReport

end MiniatureMachine
