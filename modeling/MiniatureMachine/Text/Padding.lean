/-!
Contract: fixed-width columns.

Owns:
- padding a text with spaces up to a column width.
-/

namespace MiniatureMachine.Text

/-- The text followed by as many spaces as it needs to fill the width. A text
that is already as wide is left as it is. -/
def padEnd (width : Nat) (text : String) : String :=
  text ++ String.ofList (List.replicate (width - text.length) ' ')

theorem toList_padEnd (width : Nat) (text : String) :
    (padEnd width text).toList =
      text.toList ++ List.replicate (width - text.length) ' ' := by
  simp [padEnd]

/-- A padded text is as wide as its column or as the text, whichever is wider. -/
theorem length_padEnd (width : Nat) (text : String) :
    (padEnd width text).length = max width text.length := by
  rw [← String.length_toList, toList_padEnd]
  simp only [List.length_append, List.length_replicate, String.length_toList]
  omega

end MiniatureMachine.Text
