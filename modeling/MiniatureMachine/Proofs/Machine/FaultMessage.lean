import MiniatureMachine.Machine.Fault
import MiniatureMachine.Proofs.Text

/-!
Contract: the addresses that the messages of faults say.

Owns:
- the addresses that a cause carries;
- a message as an opening of fixed words and what follows it;
- which addresses stand in a message behind "at pc" and behind "memory location".

The words of a console failure come from outside. Of all other messages it is known
character by character where such words can begin.
-/

namespace MiniatureMachine

namespace FaultCause

/-- The address of the instruction that a cause carries. -/
def instructionAddress? : FaultCause → Option Nat
  | invalidJumpTarget pc _ | invalidMemoryTarget pc _ _ | divisionByZero pc | invalidOpcode pc =>
      some pc
  | _ => none

def fetchAddress? : FaultCause → Option Nat
  | memoryOutOfBounds pc | badInstruction pc => some pc
  | _ => none

/-- The fixed words that a message opens with. -/
def opening : FaultCause → String
  | memoryOutOfBounds _ =>
      "Memory Out of Bounds Error.\nProgram attempted to execute memory location "
  | badInstruction _ => "Bad instruction at memory location "
  | invalidJumpTarget _ _ => "Invalid jump target at pc "
  | invalidMemoryTarget _ access _ => "Invalid " ++ access.text ++ " target at pc "
  | divisionByZero _ => "Division by Zero Error at pc "
  | integerOverflow _ => "Integer Overflow Error: Result was larger than 16 bits ("
  | invalidOpcode _ => "Invalid operation code at pc "
  | console _ => "Console error: "
  | interrupted => interrupted.message
  | endOfInput => endOfInput.message
  | aborted => aborted.message

def remainder : FaultCause → List Char
  | memoryOutOfBounds pc | badInstruction pc | invalidOpcode pc => (toString pc).toList
  | invalidJumpTarget pc target | invalidMemoryTarget pc _ target =>
      (toString pc).toList ++ ": ".toList ++ (toString target).toList
  | divisionByZero pc => (toString pc).toList ++ ".".toList
  | integerOverflow result => (toString result).toList ++ ").".toList
  | console failure => failure.toList
  | interrupted | endOfInput | aborted => []

theorem toList_message (cause : FaultCause) :
    cause.message.toList = cause.opening.toList ++ cause.remainder := by
  cases cause with
  | memoryOutOfBounds | badInstruction | invalidOpcode | console => exact String.toList_append
  | invalidJumpTarget pc target =>
      show ("Invalid jump target at pc " ++ toString pc ++ ": " ++ toString target).toList = _
      simp only [String.toList_append, List.append_assoc, opening, remainder]
  | invalidMemoryTarget pc access target =>
      show ("Invalid " ++ access.text ++
        (" target at pc " ++ toString pc ++ ": " ++ toString target)).toList = _
      simp only [String.toList_append, List.append_assoc, opening, remainder]
  | divisionByZero pc =>
      show ("Division by Zero Error at pc " ++ toString pc ++ ".").toList = _
      simp only [String.toList_append, List.append_assoc, opening, remainder]
  | integerOverflow result =>
      show ("Integer Overflow Error: Result was larger than 16 bits (" ++ toString result ++
        ").").toList = _
      simp only [String.toList_append, List.append_assoc, opening, remainder]
  | interrupted | endOfInput | aborted => exact (List.append_nil _).symm

theorem closesOnly_opening (cause : FaultCause) :
    Text.ClosesOnly "at pc ".toList cause.opening.toList := by
  cases cause with
  | invalidMemoryTarget pc access target => cases access <;> simp only [opening] <;> decide +kernel
  | _ => simp only [opening]; decide +kernel

/-- Only the console can repeat such words behind the opening of a message. -/
theorem not_mem_remainder {cause : FaultCause} (notConsole : cause.code ≠ .console) :
    'a' ∉ cause.remainder := by
  have natural : ∀ number : Nat, 'a' ∉ (toString number).toList := fun number member =>
    absurd rfl (Text.ne_of_isDigit (Text.isDigit_of_mem_toString member) (by decide))
  have integer : ∀ number : Int, 'a' ∉ (toString number).toList := by
    intro number
    rcases Text.toString_int_cases number with ⟨magnitude, -, shown⟩ | ⟨magnitude, -, shown⟩
    · rw [shown]
      exact natural magnitude
    · rw [shown, List.mem_cons, not_or]
      exact ⟨by decide, natural magnitude⟩
  have colon : 'a' ∉ ": ".toList := by decide
  have dot : 'a' ∉ ".".toList := by decide
  have closing : 'a' ∉ ").".toList := by decide
  cases cause with
  | console failure => exact absurd rfl notConsole
  | memoryOutOfBounds pc | badInstruction pc | invalidOpcode pc => exact natural pc
  | invalidJumpTarget pc target | invalidMemoryTarget pc _ target =>
      simp only [remainder, List.mem_append, natural, colon, integer, or_self, not_false_eq_true]
  | divisionByZero pc =>
      simp only [remainder, List.mem_append, natural, dot, or_self, not_false_eq_true]
  | integerOverflow result =>
      simp only [remainder, List.mem_append, integer, closing, or_self, not_false_eq_true]
  | interrupted | endOfInput | aborted => exact List.not_mem_nil

/-- A cause with the address of an instruction puts it between its opening and some words
that do not go on with a digit. -/
theorem remainder_of_instructionAddress {cause : FaultCause} {address : Nat}
    (carries : cause.instructionAddress? = some address) :
    "at pc ".toList <:+ cause.opening.toList ∧
      ∃ back, cause.remainder = (toString address).toList ++ back ∧
        ∀ c ∈ back.head?, c.isDigit = false := by
  cases cause with
  | invalidJumpTarget pc target =>
      cases carries
      refine ⟨?_, _, List.append_assoc .., by rintro c ⟨⟩; decide⟩
      simp only [opening]
      decide +kernel
  | invalidMemoryTarget pc access target =>
      cases carries
      refine ⟨?_, _, List.append_assoc .., by rintro c ⟨⟩; decide⟩
      cases access <;> simp only [opening] <;> decide +kernel
  | divisionByZero pc =>
      cases carries
      exact ⟨by simp only [opening]; decide +kernel, _, rfl, by rintro c ⟨⟩; decide⟩
  | invalidOpcode pc =>
      cases carries
      exact ⟨by simp only [opening]; decide +kernel, [], (List.append_nil _).symm, nofun⟩
  | _ => cases carries

private theorem not_closed_of_instructionAddress {cause : FaultCause}
    (carries : cause.instructionAddress? = none) : ¬"at pc ".toList <:+ cause.opening.toList := by
  cases cause with
  | invalidJumpTarget | invalidMemoryTarget | divisionByZero | invalidOpcode => cases carries
  | _ => simp only [opening]; decide +kernel

/-- A message says "at pc" only with the address of an instruction that its cause carries,
unless the console has put in these words. -/
theorem names_pc_iff {cause : FaultCause} (notConsole : cause.code ≠ .console) (address : Nat) :
    Text.Names "at pc " address cause.message ↔ cause.instructionAddress? = some address := by
  have absent := not_mem_remainder notConsole
  cases carries : cause.instructionAddress? with
  | some pc =>
      obtain ⟨closed, back, shown, ends⟩ := remainder_of_instructionAddress carries
      rw [shown, List.mem_append, not_or] at absent
      rw [Text.names_iff_of_closes (closesOnly_opening cause) closed (c := 'a') (by decide)
        (by decide) (shown ▸ toList_message cause) absent.2 ends, Option.some_inj, eq_comm]
  | none =>
      refine iff_of_false (fun named => ?_) (by simp)
      rcases Text.names_of_closes (closesOnly_opening cause) (toList_message cause) named with
        ⟨closed, -⟩ | later
      · exact not_closed_of_instructionAddress carries closed
      · exact Text.not_names_of_absent (c := 'a') (by decide) absent later

/-- What the message of a console failure says, the failure says. -/
theorem names_pc_of_console {failure : String} {address : Nat}
    (named : Text.Names "at pc " address (message (.console failure))) :
    Text.Names "at pc " address failure := by
  have unclosed := @not_closed_of_instructionAddress (.console failure) rfl
  rcases Text.names_of_closes (closesOnly_opening _) (toList_message _) named with
    ⟨closed, -⟩ | later
  · exact absurd closed unclosed
  · rwa [remainder, String.ofList_toList] at later

/-- A message about a fetch says its address. -/
theorem names_location_iff {cause : FaultCause} {pc : Nat} (carries : cause.fetchAddress? = some pc)
    (address : Nat) :
    Text.Names "memory location " address cause.message ↔ address = pc := by
  have absent : 'm' ∉ ([] : List Char) := List.not_mem_nil
  have shown : ∀ cause : FaultCause, cause.fetchAddress? = some pc →
      cause.message.toList = cause.opening.toList ++ ((toString pc).toList ++ []) := by
    intro cause carries
    rw [toList_message, List.append_nil]
    cases cause <;> cases carries <;> rfl
  cases cause with
  | memoryOutOfBounds | badInstruction =>
      exact Text.names_iff_of_closes (by simp only [opening]; decide +kernel)
        (by simp only [opening]; decide +kernel) (c := 'm') (by decide) (by decide)
        (shown _ carries) absent nofun
  | _ => cases carries

end FaultCause

end MiniatureMachine
