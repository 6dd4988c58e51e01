import Mathlib.Data.List.DropRight
import MiniatureMachine.CommandLine.StandardInput
import MiniatureMachine.Proofs.Text

/-!
Contract: the lines that an operator enters as one text.

Owns:
- cutting a text behind each newline, and what is left of a piece without its ending;
- the bytes of a text, of which only a newline's is the byte that ends a line;
- that the console over the bytes of a text is the console with the text's lines as its script.

The console cuts bytes, drops the newline with the cut and strips carriage returns only. The
lines here are cut as characters and stripped of both. The two meet at the lines that
newlines close and the rest behind the last newline.
-/

namespace MiniatureMachine.StandardInput

/-! ## The lines of a text -/

/-- A text cut behind each newline. What stands behind the last newline is a piece if there
is anything. -/
def cutAfterNewlines : List Char → List (List Char)
  | [] => []
  | c :: rest =>
      if c = '\n' then [c] :: cutAfterNewlines rest
      else
        match cutAfterNewlines rest with
        | [] => [[c]]
        | piece :: more => (c :: piece) :: more

def isEnding (c : Char) : Bool :=
  c == '\r' || c == '\n'

/-- The lines that a text enters: its pieces, without any carriage returns and newlines at
their ends. -/
def inputLines (text : String) : List String :=
  (cutAfterNewlines text.toList).map fun piece => String.ofList (piece.rdropWhile isEnding)

/-! ## Closed lines and the rest -/

/-- A text as the lines that newlines close, and the rest behind the last newline. -/
structure CutsInto (text : List Char) (closed : List (List Char)) (rest : List Char) : Prop where
  made : text = closed.flatMap (· ++ ['\n']) ++ rest
  unbroken : ∀ line ∈ closed, ∀ c ∈ line, (c == '\n') = false
  unclosed : ∀ c ∈ rest, (c == '\n') = false

def entered (closed : List (List Char)) (rest : List Char) : List (List Char) :=
  if rest.isEmpty then closed else closed ++ [rest]

variable {text : List Char} {closed : List (List Char)} {rest line : List Char}

private theorem exists_cutsInto (text : List Char) : ∃ closed rest, CutsInto text closed rest := by
  induction text with
  | nil => exact ⟨[], [], rfl, List.forall_mem_nil _, List.forall_mem_nil _⟩
  | cons c text inductionHypothesis =>
      obtain ⟨closed, rest, rfl, unbroken, unclosed⟩ := inductionHypothesis
      by_cases newline : c = '\n'
      · subst newline
        exact ⟨[] :: closed, rest, rfl,
          List.forall_mem_cons.mpr ⟨List.forall_mem_nil _, unbroken⟩, unclosed⟩
      · have solid : (c == '\n') = false := beq_eq_false_iff_ne.mpr newline
        cases closed with
        | nil =>
            exact ⟨[], c :: rest, rfl, List.forall_mem_nil _,
              List.forall_mem_cons.mpr ⟨solid, unclosed⟩⟩
        | cons line closed =>
            obtain ⟨first, others⟩ := List.forall_mem_cons.mp unbroken
            exact ⟨(c :: line) :: closed, rest, rfl, List.forall_mem_cons.mpr
              ⟨List.forall_mem_cons.mpr ⟨solid, first⟩, others⟩, unclosed⟩

private theorem CutsInto.unbroken_entered (cuts : CutsInto text closed rest) :
    ∀ line ∈ entered closed rest, ∀ c ∈ line, (c == '\n') = false := by
  unfold entered
  split
  · exact cuts.unbroken
  · exact List.forall_mem_append.mpr ⟨cuts.unbroken, List.forall_mem_singleton.mpr cuts.unclosed⟩

/-! ## Cutting characters -/

private theorem cutAfterNewlines_closed (following : List Char)
    (unbroken : ∀ c ∈ line, (c == '\n') = false) :
    cutAfterNewlines (line ++ '\n' :: following) =
      (line ++ ['\n']) :: cutAfterNewlines following := by
  induction line with
  | nil => rfl
  | cons c line inductionHypothesis =>
      obtain ⟨first, others⟩ := List.forall_mem_cons.mp unbroken
      rw [List.cons_append, cutAfterNewlines, if_neg (beq_eq_false_iff_ne.mp first),
        inductionHypothesis others]
      rfl

private theorem cutAfterNewlines_unclosed (unclosed : ∀ c ∈ rest, (c == '\n') = false) :
    cutAfterNewlines rest = entered [] rest := by
  induction rest with
  | nil => rfl
  | cons c rest inductionHypothesis =>
      obtain ⟨first, others⟩ := List.forall_mem_cons.mp unclosed
      rw [cutAfterNewlines, if_neg (beq_eq_false_iff_ne.mp first), inductionHypothesis others]
      cases rest <;> rfl

/-- Cut behind its newlines, a text gives the closed lines with them, and the rest. -/
theorem CutsInto.cutAfterNewlines_eq (cuts : CutsInto text closed rest) :
    cutAfterNewlines text = closed.map (· ++ ['\n']) ++ entered [] rest := by
  obtain ⟨rfl, unbroken, unclosed⟩ := cuts
  induction closed with
  | nil => exact cutAfterNewlines_unclosed unclosed
  | cons line closed inductionHypothesis =>
      obtain ⟨first, others⟩ := List.forall_mem_cons.mp unbroken
      rw [List.flatMap_cons, List.append_assoc, List.append_assoc, List.singleton_append,
        cutAfterNewlines_closed _ first, inductionHypothesis others]
      rfl

/-- A newline that closes a line goes with its ending. -/
theorem CutsInto.inputLines_eq {text : String} (cuts : CutsInto text.toList closed rest) :
    inputLines text =
      (entered closed rest).map fun line => String.ofList (line.rdropWhile isEnding) := by
  have closing : ∀ line : List Char,
      (line ++ ['\n']).rdropWhile isEnding = line.rdropWhile isEnding :=
    fun line => List.rdropWhile_concat_pos isEnding line '\n' rfl
  unfold inputLines
  rw [cuts.cutAfterNewlines_eq, List.map_append, List.map_map]
  simp only [Function.comp_def, closing]
  unfold entered
  split <;> simp

/-! ## Cutting bytes -/

def encode (text : List Char) : List UInt8 :=
  text.flatMap String.utf8EncodeChar

private theorem toList_loop (bytes : ByteArray) (position : Nat) (before : List UInt8) :
    ByteArray.toList.loop bytes position before =
      before.reverse ++ bytes.data.toList.drop position := by
  fun_induction ByteArray.toList.loop bytes position before
  case case1 position before inside inductionHypothesis =>
    have inList : position < bytes.data.toList.length := inside
    rw [inductionHypothesis, List.drop_eq_getElem_cons inList]
    simp [ByteArray.get!, inside]
  case case2 position before outside =>
    rw [List.drop_eq_nil_of_le (Nat.le_of_not_lt outside), List.append_nil]

private theorem toList_toByteArray (bytes : List UInt8) : bytes.toByteArray.toList = bytes := by
  rw [ByteArray.toList, toList_loop, List.toList_data_toByteArray]
  rfl

private theorem toUTF8_ofList (text : List Char) :
    (String.ofList text).toUTF8 = (encode text).toByteArray := by
  rw [String.toUTF8_eq_toByteArray, String.toByteArray_ofList]
  rfl

private theorem toList_toUTF8 (text : String) : text.toUTF8.toList = encode text.toList := by
  rw [← toList_toByteArray (encode text.toList), ← toUTF8_ofList, String.ofList_toList]

/-- The bytes of a character that takes several are not below 128, and so none of them is a
newline. -/
theorem eq_newline_of_mem_utf8EncodeChar {c : Char}
    (member : newline ∈ String.utf8EncodeChar c) : c = '\n' := by
  have high : ∀ number, 128 ≤ number → number < 256 → newline ≠ UInt8.ofNat number := by
    intro number above below same
    have value := congrArg UInt8.toNat same
    rw [UInt8.toNat_ofNat', Nat.mod_eq_of_lt below] at value
    change 10 = number at value
    omega
  unfold String.utf8EncodeChar at member
  dsimp only at member
  split at member
  · rename_i ascii
    have value := congrArg UInt8.toNat (List.mem_singleton.mp member)
    rw [UInt8.toNat_ofNat', Nat.mod_eq_of_lt (by omega)] at value
    exact Char.ext (UInt32.toNat_inj.mp value.symm)
  · exfalso
    split at member
    · simp only [List.mem_cons, List.not_mem_nil, or_false] at member
      rcases member with byte | byte
      all_goals exact high _ (by omega) (by omega) byte
    · split at member
      · simp only [List.mem_cons, List.not_mem_nil, or_false] at member
        rcases member with byte | byte | byte
        all_goals exact high _ (by omega) (by omega) byte
      · simp only [List.mem_cons, List.not_mem_nil, or_false] at member
        rcases member with byte | byte | byte | byte
        all_goals exact high _ (by omega) (by omega) byte

private theorem solid_encode (unbroken : ∀ c ∈ line, (c == '\n') = false) :
    ∀ byte ∈ encode line, (byte == newline) = false := by
  intro byte member
  obtain ⟨c, inLine, inBytes⟩ := List.mem_flatMap.mp member
  rw [beq_eq_false_iff_ne]
  rintro rfl
  have isNewline := eq_newline_of_mem_utf8EncodeChar inBytes
  have notNewline := unbroken c inLine
  rw [isNewline] at notNewline
  cases notNewline

private theorem encode_eq_nil_iff : encode line = [] ↔ line = [] := by
  unfold encode
  rw [List.flatMap_eq_nil_iff]
  constructor
  · intro empty
    rw [List.eq_nil_iff_forall_not_mem]
    exact fun c member => String.utf8EncodeChar_ne_nil (empty c member)
  · rintro rfl
    exact List.forall_mem_nil _

private theorem encode_closed (closed : List (List Char)) (rest : List Char) :
    encode (closed.flatMap (· ++ ['\n']) ++ rest) =
      (closed.map encode).flatMap (· ++ [newline]) ++ encode rest := by
  unfold encode
  simp only [List.flatMap_append, List.flatMap_assoc, List.flatMap_map]
  rfl

/-- The bytes of a text are cut where the text is. -/
theorem CutsInto.byteLines_eq {text : String} (cuts : CutsInto text.toList closed rest) :
    byteLines text.toUTF8 = (entered closed rest).map encode := by
  have pieces : Text.pieces (· == newline) text.toUTF8.toList =
      closed.map encode ++ [encode rest] := by
    rw [toList_toUTF8, cuts.made, encode_closed]
    refine Text.pieces_flatMap_append rfl ?_ (solid_encode cuts.unclosed)
    refine List.forall_mem_map.mpr fun line member => ?_
    exact solid_encode (cuts.unbroken line member)
  unfold byteLines entered
  simp only [pieces, List.getLast?_concat, Option.some.injEq, encode_eq_nil_iff,
    List.dropLast_concat, List.isEmpty_iff]
  split
  · rfl
  · rw [List.map_append]
    rfl

/-! ## The text of a line -/

private theorem rdropWhile_congr {α : Type} {left right : α → Bool} {list : List α}
    (agree : ∀ c ∈ list, left c = right c) : list.rdropWhile left = list.rdropWhile right := by
  induction list using List.reverseRecOn with
  | nil => rfl
  | append_singleton list c inductionHypothesis =>
      obtain ⟨others, last⟩ := List.forall_mem_append.mp agree
      rw [List.rdropWhile_concat, List.rdropWhile_concat, inductionHypothesis others,
        List.forall_mem_singleton.mp last]

private theorem lineText?_encode (unbroken : ∀ c ∈ line, (c == '\n') = false) :
    lineText? (encode line) = some (String.ofList (line.rdropWhile isEnding)) := by
  have bytes : (⟨(encode line).toArray⟩ : ByteArray) = (String.ofList line).toUTF8 := by
    rw [toUTF8_ofList]
    exact ByteArray.ext List.data_toByteArray.symm
  have onlyReturns : line.rdropWhile (· == '\r') = line.rdropWhile isEnding := by
    refine rdropWhile_congr fun c member => ?_
    rw [isEnding, unbroken c member, Bool.or_false]
  unfold lineText?
  rw [bytes, Text.fromUTF8?_toUTF8, Option.map_some, String.toList_ofList, ← onlyReturns]
  rfl

private theorem readable_map_encode {lines : List (List Char)}
    (unbroken : ∀ line ∈ lines, ∀ c ∈ line, (c == '\n') = false) :
    readable (lines.map encode) =
      lines.map fun line => String.ofList (line.rdropWhile isEnding) := by
  induction lines with
  | nil => rfl
  | cons line lines inductionHypothesis =>
      obtain ⟨first, others⟩ := List.forall_mem_cons.mp unbroken
      rw [List.map_cons, readable, lineText?_encode first, inductionHypothesis others]
      rfl

/-- The console over the bytes of a text answers with the lines that the text enters, and no
call of it fails. -/
theorem console_toUTF8 (text : String) :
    console text.toUTF8 = Console.start ((inputLines text).map .line) .calm := by
  obtain ⟨closed, rest, cuts⟩ := exists_cutsInto text.toList
  have texts : readable (byteLines text.toUTF8) = inputLines text := by
    rw [cuts.byteLines_eq, readable_map_encode cuts.unbroken_entered, cuts.inputLines_eq]
  have count : (inputLines text).length = (byteLines text.toUTF8).length := by
    rw [cuts.inputLines_eq, cuts.byteLines_eq, List.length_map, List.length_map]
  unfold console
  simp only [texts, count, lt_irrefl, if_false]
  rfl

end MiniatureMachine.StandardInput
