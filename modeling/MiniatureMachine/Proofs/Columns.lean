import MiniatureMachine.Proofs.Numeral
import MiniatureMachine.Text.Padding

/-!
Contract: texts in columns lose nothing.

Owns:
- a text that is padded to the width of its column;
- texts whose only blanks are spaces, and what trimming leaves to tell of them;
- texts of known lengths with separators between them;
- lines with newlines behind them;
- the lengths of numerals, and their characters.

A text is cut again where it was put together, when the places of the cuts are known: from the
lengths of the parts, or from a character that no part has.
-/

namespace MiniatureMachine

namespace Text

/-! ## Padding -/

private theorem trimEnd_padEnd {text : String}
    (solid : ∀ c ∈ text.toList.getLast?, isBlank c = false)
    (width : Nat) : trimEnd (padEnd width text).toList = text.toList := by
  rw [toList_padEnd, trimEnd_append_blanks, trimEnd_of_last solid]
  intro c member
  rw [List.eq_of_mem_replicate member]
  exact isBlank_space

/-- A column tells a text that does not end in a blank. -/
theorem eq_of_padEnd_eq {text other : String} {width : Nat}
    (solid : ∀ c ∈ text.toList.getLast?, isBlank c = false)
    (otherSolid : ∀ c ∈ other.toList.getLast?, isBlank c = false)
    (same : padEnd width text = padEnd width other) : text = other := by
  rw [← String.toList_inj, ← trimEnd_padEnd solid width, same, trimEnd_padEnd otherSolid]

/-! ## Texts with spaces -/

/-- The only blanks of a text are spaces. -/
def OnlySpaces (text : String) : Prop :=
  ∀ c ∈ text.toList, isBlank c = true → c = ' '

theorem OnlySpaces.append {text other : String} (spaces : OnlySpaces text)
    (otherSpaces : OnlySpaces other) : OnlySpaces (text ++ other) := by
  intro c member
  rw [String.toList_append] at member
  rcases List.mem_append.mp member with inText | inOther
  · exact spaces c inText
  · exact otherSpaces c inOther

theorem OnlySpaces.padEnd {text : String} (spaces : OnlySpaces text) (width : Nat) :
    OnlySpaces (padEnd width text) := by
  refine spaces.append fun c member _ => ?_
  rw [String.toList_ofList] at member
  exact List.eq_of_mem_replicate member

theorem OnlySpaces.unbroken {text : String} (spaces : OnlySpaces text) : '\n' ∉ text.toList := by
  intro member
  cases spaces _ member isBlank_newline

theorem onlySpaces_of_solid {text : String} (solid : ∀ c ∈ text.toList, isBlank c = false) :
    OnlySpaces text := by
  intro c member blank
  cases (solid c member).symm.trans blank

theorem onlySpaces_of_all {text : String}
    (checked : text.toList.all (fun c => !isBlank c || c == ' ') = true) : OnlySpaces text := by
  intro c member blank
  have known := List.all_eq_true.mp checked c member
  rwa [blank, Bool.not_true, Bool.false_or, beq_iff_eq] at known

/-- A text is told by its length and by what is left of it when its end is trimmed. -/
theorem eq_of_trimEnd_eq {text other : String} (spaces : OnlySpaces text)
    (otherSpaces : OnlySpaces other) (sameLength : text.length = other.length)
    (same : trimEnd text.toList = trimEnd other.toList) : text = other := by
  obtain ⟨gap, parts, blanks⟩ := exists_eq_trimEnd_append text.toList
  obtain ⟨otherGap, otherParts, otherBlanks⟩ := exists_eq_trimEnd_append other.toList
  have gapSpaces : ∀ c ∈ gap, c = ' ' := fun c member =>
    spaces c (parts ▸ List.mem_append_right _ member) (blanks c member)
  have otherGapSpaces : ∀ c ∈ otherGap, c = ' ' := fun c member =>
    otherSpaces c (otherParts ▸ List.mem_append_right _ member) (otherBlanks c member)
  have gapLength : gap.length = otherGap.length := by
    rw [← String.length_toList, ← String.length_toList, parts, otherParts, List.length_append,
      List.length_append, same] at sameLength
    exact Nat.add_left_cancel sameLength
  rw [← String.toList_inj, parts, otherParts, same, List.eq_replicate_of_mem gapSpaces,
    List.eq_replicate_of_mem otherGapSpaces, gapLength]

/-- Between separators, texts of known lengths make up a text of a known length, and they can be
told from it. -/
theorem intercalate_fixed (separator : String) {texts others : List String}
    (sameLengths : texts.map String.length = others.map String.length) :
    (separator.intercalate texts).length = (separator.intercalate others).length ∧
      (separator.intercalate texts = separator.intercalate others → texts = others) := by
  induction texts generalizing others with
  | nil =>
      obtain rfl := List.map_eq_nil_iff.mp sameLengths.symm
      exact ⟨rfl, fun _ => rfl⟩
  | cons text texts inductionHypothesis =>
      cases others with
      | nil => cases sameLengths
      | cons other others =>
          rw [List.map_cons, List.map_cons, List.cons.injEq] at sameLengths
          obtain ⟨first, later⟩ := sameLengths
          have inner := inductionHypothesis later
          cases texts with
          | nil =>
              obtain rfl := List.map_eq_nil_iff.mp later.symm
              rw [String.intercalate_singleton, String.intercalate_singleton]
              exact ⟨first, fun same => congrArg (fun text => [text]) same⟩
          | cons next texts =>
              cases others with
              | nil => cases later
              | cons otherNext others =>
                  rw [String.intercalate_cons_cons, String.intercalate_cons_cons]
                  simp only [String.length_append, first, inner.1, true_and]
                  intro same
                  rw [← String.toList_inj] at same
                  simp only [String.toList_append, List.append_assoc] at same
                  have lengths : text.toList.length = other.toList.length := by
                    rw [String.length_toList, String.length_toList, first]
                  obtain ⟨sameText, rest⟩ := List.append_inj same lengths
                  rw [List.append_cancel_left_eq, String.toList_inj] at rest
                  rw [String.toList_inj.mp sameText, inner.2 rest]

/-- Lines with newlines behind them are told by the text that they make up. -/
theorem lines_eq_of_join_eq {lines others : List String}
    (unbroken : ∀ line ∈ lines, '\n' ∉ line.toList)
    (otherUnbroken : ∀ line ∈ others, '\n' ∉ line.toList)
    (same : String.join (lines.map (· ++ "\n")) = String.join (others.map (· ++ "\n"))) :
    lines = others := by
  have cut : ∀ texts : List String, (∀ line ∈ texts, '\n' ∉ line.toList) →
      pieces (· == '\n') (String.join (texts.map (· ++ "\n"))).toList =
        texts.map String.toList ++ [[]] := by
    intro texts solid
    have newline : "\n".toList = ['\n'] := rfl
    have joined : (String.join (texts.map (· ++ "\n"))).toList =
        (texts.map String.toList).flatMap (· ++ ['\n']) := by
      simp only [String.toList_join, List.flatMap_map, String.toList_append, newline]
    rw [joined, pieces_flatMap (by decide)]
    rw [List.forall_mem_map]
    intro line member c inLine
    rw [beq_eq_false_iff_ne]
    rintro rfl
    exact solid line member inLine
  have sameCut := cut lines unbroken
  rw [same, cut others otherUnbroken] at sameCut
  exact List.map_inj_right (fun _ _ => String.toList_inj.mp) |>.mp
    (List.append_cancel_right sameCut).symm

/-! ## Numerals -/

theorem length_toString_le_iff {number width : Nat} (positive : 0 < width) :
    (toString number).length ≤ width ↔ number < 10 ^ width := by
  rw [Nat.toString_eq_ofList_toDigits, String.length_ofList]
  exact Nat.length_toDigits_le_iff (by decide) positive

private theorem length_toString_pos (number : Nat) : 0 < (toString number).length := by
  rw [← String.length_toList]
  exact List.length_pos_iff.mpr (toList_toString_ne_nil number)

/-- A smaller number has no longer numeral. -/
theorem length_toString_mono {number other : Nat} (le : number ≤ other) :
    (toString number).length ≤ (toString other).length := by
  have positive := length_toString_pos other
  rw [length_toString_le_iff positive]
  exact Nat.lt_of_le_of_lt le ((length_toString_le_iff positive).mp (Nat.le_refl _))

theorem isBlank_of_mem_toString {number : Nat} {c : Char}
    (member : c ∈ (toString number).toList) : isBlank c = false := by
  cases blank : isBlank c with
  | false => rfl
  | true => cases (isDigit_of_mem_toString member).symm.trans (isDigit_of_isBlank blank)

theorem isBlank_of_mem_toString_int {number : Int} {c : Char}
    (member : c ∈ (toString number).toList) : isBlank c = false := by
  rcases toString_int_cases number with ⟨magnitude, -, shown⟩ | ⟨magnitude, -, shown⟩ <;>
    rw [shown] at member
  · exact isBlank_of_mem_toString member
  · rcases List.mem_cons.mp member with rfl | digit
    · decide
    · exact isBlank_of_mem_toString digit

theorem toString_int_injective : Function.Injective fun number : Int => toString number := by
  intro number other same
  have read := signedDecimal?_eq_some_iff.mpr (signedNumeral_toString number)
  rw [show toString number = toString other from same,
    signedDecimal?_eq_some_iff.mpr (signedNumeral_toString other)] at read
  exact (Option.some.inj read).symm

end Text

end MiniatureMachine
