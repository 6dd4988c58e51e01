import Mathlib.Data.List.Basic

/-!
Contract: places in a text that are counted in bytes.

Owns:
- the byte offsets at which the characters of a text begin;
- the slices of a text at a byte offset, which exist at the ends of characters only;
- the byte offset of the last character of a class.

A text is put together of a front and a back. Every lemma is about the place between the two,
whose byte offset is the byte length of the front.
-/

namespace MiniatureMachine.Text

/-- The characters of a text, each with the byte offset at which it begins. -/
def offsetsFrom (start : String.Pos.Raw) : List Char → List (String.Pos.Raw × Char)
  | [] => []
  | c :: rest => (start, c) :: offsetsFrom (start + c) rest

/-- What stands in a text before a byte offset. There is no such slice when the offset falls
inside a character or beyond the end. -/
def sliceTo? (text : String) (offset : String.Pos.Raw) : Option String :=
  (text.pos? offset).map fun position => (text.sliceTo position).copy

/-- What stands in a text from a byte offset on, under the same condition. -/
def sliceFrom? (text : String) (offset : String.Pos.Raw) : Option String :=
  (text.pos? offset).map fun position => (text.sliceFrom position).copy

/-- The byte offset of the last character of a class. -/
def lastOffset? (inClass : Char → Bool) (text : String) : Option String.Pos.Raw :=
  ((offsetsFrom 0 text.toList).reverse.find? fun entry => inClass entry.2).map (·.1)

/-! ## Offsets -/

private theorem offsetsFrom_append (start : String.Pos.Raw) (front back : List Char) :
    offsetsFrom start (front ++ back) =
      offsetsFrom start front ++ offsetsFrom (start + String.ofList front) back := by
  induction front generalizing start with
  | nil => rfl
  | cons c front inductionHypothesis =>
      have advanced : start + c + String.ofList front = start + String.ofList (c :: front) := by
        ext
        simp only [String.Pos.Raw.byteIdx_add_string, String.Pos.Raw.byteIdx_add_char,
          String.ofList_cons, String.utf8ByteSize_append, String.utf8ByteSize_singleton,
          Nat.add_assoc]
      rw [List.cons_append, offsetsFrom, offsetsFrom, inductionHypothesis, advanced,
        List.cons_append]

@[simp] theorem length_offsetsFrom (start : String.Pos.Raw) (text : List Char) :
    (offsetsFrom start text).length = text.length := by
  induction text generalizing start with
  | nil => rfl
  | cons c text inductionHypothesis =>
      rw [offsetsFrom, List.length_cons, inductionHypothesis, List.length_cons]

private theorem mem_of_mem_offsetsFrom {start : String.Pos.Raw} {text : List Char}
    {entry : String.Pos.Raw × Char} (member : entry ∈ offsetsFrom start text) :
    entry.2 ∈ text := by
  induction text generalizing start with
  | nil => cases member
  | cons c text inductionHypothesis =>
      rcases List.mem_cons.mp member with rfl | later
      · exact List.mem_cons_self
      · exact List.mem_cons_of_mem c (inductionHypothesis later)

/-- The characters that begin a text end at its byte length. -/
theorem zero_add_ofList (front : List Char) :
    (0 : String.Pos.Raw) + String.ofList front = (String.ofList front).rawEndPos := by
  ext
  rw [String.Pos.Raw.byteIdx_add_string, String.Pos.Raw.byteIdx_zero, Nat.zero_add,
    String.byteIdx_rawEndPos]

/-- The character behind a front part begins where that part ends. -/
theorem getElem?_offsetsFrom_append (front : List Char) (c : Char) (back : List Char) :
    (offsetsFrom 0 (front ++ c :: back))[front.length]? =
      some ((String.ofList front).rawEndPos, c) := by
  rw [offsetsFrom_append, List.getElem?_append_right (Nat.le_of_eq (length_offsetsFrom 0 front)),
    length_offsetsFrom, Nat.sub_self, offsetsFrom, List.getElem?_cons_zero, zero_add_ofList]

variable {inClass : Char → Bool}

private theorem find?_offsetsFrom_of_solid {text : List Char}
    (solid : ∀ c ∈ text, inClass c = false)
    (start : String.Pos.Raw) :
    (offsetsFrom start text).reverse.find? (fun entry => inClass entry.2) = none := by
  rw [List.find?_eq_none]
  intro entry member
  rw [solid entry.2 (mem_of_mem_offsetsFrom (List.mem_reverse.mp member))]
  exact Bool.false_ne_true

theorem lastOffset?_of_solid {text : String} (solid : ∀ c ∈ text.toList, inClass c = false) :
    lastOffset? inClass text = none := by
  rw [lastOffset?, find?_offsetsFrom_of_solid solid, Option.map_none]

/-- The last character of a class begins where the part before it ends. -/
theorem lastOffset?_append {front back : List Char} {c : Char} (inside : inClass c = true)
    (solid : ∀ c ∈ back, inClass c = false) :
    lastOffset? inClass (String.ofList (front ++ c :: back)) =
      some (String.ofList front).rawEndPos := by
  rw [lastOffset?, String.toList_ofList, offsetsFrom_append, offsetsFrom, List.reverse_append,
    List.reverse_cons, List.append_assoc, List.find?_append, find?_offsetsFrom_of_solid solid,
    Option.none_or, List.singleton_append]
  simp only [List.find?_cons, inside, Option.map_some, zero_add_ofList]

/-! ## Slices -/

section Slices

variable (front back : String)

private theorem exists_pos?_rawEndPos :
    ∃ position, (front ++ back).pos? front.rawEndPos = some position ∧
      position.Splits front back := by
  have valid : front.rawEndPos.IsValid (front ++ back) :=
    String.Pos.Raw.isValid_rawEndPos.append_right back
  have within := String.Pos.Raw.isValidForSlice_eq_true_iff.mpr valid.toSlice
  refine ⟨(front ++ back).pos front.rawEndPos valid, ?_, String.Pos.splits_append_rawEndPos⟩
  rw [String.pos?, String.Slice.pos?, dif_pos within]
  rfl

/-- A text that is cut where a front part ends leaves that part. -/
theorem sliceTo?_rawEndPos : sliceTo? (front ++ back) front.rawEndPos = some front := by
  obtain ⟨position, found, splits⟩ := exists_pos?_rawEndPos front back
  rw [sliceTo?, found, Option.map_some, splits.copy_sliceTo_eq]

theorem sliceFrom?_rawEndPos : sliceFrom? (front ++ back) front.rawEndPos = some back := by
  obtain ⟨position, found, splits⟩ := exists_pos?_rawEndPos front back
  rw [sliceFrom?, found, Option.map_some, splits.copy_sliceFrom_eq]

end Slices

end MiniatureMachine.Text
