import MiniatureMachine.BitString

/-!
Contract: the machine's 16-bit word.

Owns:
- the signed reading of a word and the check that an integer is one;
- the layout of a word as four groups of four digits.
-/

namespace MiniatureMachine

/-- A word of the machine, in a register or in a memory cell. -/
abbrev Word := BitVec 16

namespace Word

def minimum : Int := -32768

def maximum : Int := 32767

/-- The word that holds a number, if one does. Nothing wraps. -/
def ofInt? (number : Int) : Option Word :=
  if minimum ≤ number ∧ number ≤ maximum then some (BitVec.ofInt 16 number) else none

/-- The four-digit groups of a word, from the most significant one. -/
def groups (word : Word) : List String :=
  [12, 8, 4, 0].map fun offset =>
    BitString.render (Bits.ofNat 4 (word.toNat >>> offset))

/-- A word in the layout of an image line: its groups with a space between. -/
def layout (word : Word) : String :=
  " ".intercalate word.groups

/-- A word holds a number exactly when it reads back as that number. -/
theorem ofInt?_eq_some_iff {number : Int} {word : Word} :
    ofInt? number = some word ↔ word.toInt = number := by
  unfold ofInt? minimum maximum
  constructor
  · intro held
    split at held
    · rename_i inRange
      cases held
      rw [BitVec.toInt_ofInt]
      simp only [Nat.reducePow]
      rw [Int.bmod_eq_of_le] <;> omega
    · exact absurd held (by simp)
  · intro reads
    have lower := BitVec.le_toInt word
    have upper := @BitVec.toInt_lt 16 word
    rw [if_pos (by omega), ← reads, BitVec.ofInt_toInt]

end Word

end MiniatureMachine
