import MiniatureMachine.Text.Shapeless

/-!
Contract: showing one character inside a message.

Owns:
- the escapes of a quoted character.

A message about a foreign character has to stay readable when the character is
a control character or has no shape of its own.
-/

namespace MiniatureMachine.Text

/-- The form of a character between quotes: a short escape, its code point in
lowercase hexadecimal, or itself. -/
def escaped (c : Char) : String :=
  if c = '\x00' then "\\0"
  else if c = '\t' then "\\t"
  else if c = '\r' then "\\r"
  else if c = '\n' then "\\n"
  else if c = '\x27' then "\\'"
  else if c = '\\' then "\\\\"
  else if isShapeless c then
    "\\u\x7b" ++ String.ofList (Nat.toDigits 16 c.toNat) ++ "\x7d"
  else String.singleton c

def quoted (c : Char) : String :=
  "'" ++ escaped c ++ "'"

end MiniatureMachine.Text
