import MiniatureMachine.Isa.Operation

/-!
Contract: the arithmetic of the machine on unbounded integers.

Owns:
- the result of an arithmetic operation, before it is checked against a word;
- the condition of a conditional jump.

A quotient is rounded toward negative infinity and a remainder has the sign of
the divisor, so that quotient times divisor plus remainder is the dividend.
-/

namespace MiniatureMachine.Operation

/-- The result of an arithmetic operation, or none for a division by zero. The
other operations have no result and count as zero. -/
def result? (operation : Operation) (left right : Int) : Option Int :=
  match operation with
  | .add => some (left + right)
  | .sub => some (left - right)
  | .mul => some (left * right)
  | .div => if right = 0 then none else some (left.fdiv right)
  | .mod => if right = 0 then none else some (left.fmod right)
  | _ => some 0

def isTaken (operation : Operation) (number : Int) : Bool :=
  match operation with
  | .jeqz => decide (number = 0)
  | .jnez => decide (number ≠ 0)
  | .jgtz => decide (0 < number)
  | .jltz => decide (number < 0)
  | _ => false

end MiniatureMachine.Operation
