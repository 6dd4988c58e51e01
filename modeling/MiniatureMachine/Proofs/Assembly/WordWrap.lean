import MiniatureMachine.Proofs.Assembly.RowCut
import MiniatureMachine.Proofs.ByteOffset

/-!
Contract: a text is cut to the first line of a greedy word wrap.

Owns:
- the breaks of a text at a width, and the first line, which is the longest of them;
- how far a break can go: not into trailing blanks and not into a word;
- the cut by byte offsets, which never falls inside a character.

Does not own: the ways in which a text is cut. They are `CutsTo`, and each of them leaves a first
line, because the two bounds on breaks meet where it cuts.
-/

namespace MiniatureMachine.Listing

open Text (isBlank trimEnd)

/-! ## Breaks -/

/-- A front part of a text that can be its first line: it fits, it ends in a character that is
not blank, and what follows it is a blank or the end of the text. -/
structure IsBreak (width : Nat) (text line : List Char) : Prop where
  isPrefix : line <+: text
  present : line ≠ []
  short : line.length ≤ width
  solid : ∀ c ∈ line.getLast?, isBlank c = false
  followed : ∀ c ∈ text[line.length]?, isBlank c = true

/-- The first line of a text in a word wrap that puts as much as it can into every line. When a
text has no break, it is cut at the width if a word goes on there, and otherwise the line is
empty. -/
inductive IsFirstLine (width : Nat) (text : List Char) : (line : List Char) → Prop
  | longest {line : List Char} (isBreak : IsBreak width text line)
      (greatest : ∀ other, IsBreak width text other → other.length ≤ line.length) :
      IsFirstLine width text line
  | inWord {next : Char} (noBreak : ∀ other, ¬IsBreak width text other)
      (more : text[width]? = some next) (solid : isBlank next = false) :
      IsFirstLine width text (text.take width)
  | empty (noBreak : ∀ other, ¬IsBreak width text other)
      (ends : ∀ c ∈ text[width]?, isBlank c = true) :
      IsFirstLine width text []

section Breaks

variable {width : Nat} {text line other head rest : List Char}

private theorem IsBreak.length_pos (isBreak : IsBreak width text line) : 0 < line.length :=
  List.length_pos_iff.mpr isBreak.present

/-- A text has one first line only. -/
theorem IsFirstLine.unique (first : IsFirstLine width text line)
    (second : IsFirstLine width text other) : line = other := by
  cases first with
  | longest isBreak greatest =>
      cases second with
      | longest isBreak' greatest' =>
          have length := Nat.le_antisymm (greatest' line isBreak) (greatest other isBreak')
          have inside := List.prefix_of_prefix_length_le isBreak.isPrefix isBreak'.isPrefix
            (Nat.le_of_eq length)
          exact inside.eq_of_length length
      | inWord noBreak | empty noBreak => exact absurd isBreak (noBreak line)
  | inWord noBreak more solid =>
      cases second with
      | longest isBreak => exact absurd isBreak (noBreak other)
      | inWord => rfl
      | empty noBreak' ends => cases solid.symm.trans (ends _ more)
  | empty noBreak ends =>
      cases second with
      | longest isBreak => exact absurd isBreak (noBreak other)
      | inWord noBreak' more solid => cases solid.symm.trans (ends _ more)
      | empty => rfl

/-- Before a blank or the end of the text, a trimmed front part is a break. -/
theorem isBreak_trimEnd (present : trimEnd head ≠ []) (short : head.length ≤ width)
    (followed : ∀ c ∈ rest.head?, isBlank c = true) :
    IsBreak width (head ++ rest) (trimEnd head) where
  isPrefix := (Text.isPrefix_trimEnd head).trans (List.prefix_append head rest)
  present := present
  short := Nat.le_trans (Text.isPrefix_trimEnd head).length_le short
  solid _ := Text.isBlank_of_getLast?_trimEnd
  followed c found := by
    obtain ⟨gap, parts, blanks⟩ := Text.exists_eq_trimEnd_append head
    have whole : head ++ rest = trimEnd head ++ (gap ++ rest) := by
      rw [← List.append_assoc, ← parts]
    rw [whole, List.getElem?_append_right (Nat.le_refl _), Nat.sub_self,
      ← List.head?_eq_getElem?] at found
    cases gap with
    | nil => exact followed c found
    | cons first gap =>
        obtain rfl := Option.some.inj found
        exact blanks first List.mem_cons_self

/-! ## How far a break can go -/

/-- No break ends in the blanks at the end of a front part. -/
theorem IsBreak.length_le_trimEnd (isBreak : IsBreak width (head ++ rest) line)
    (within : line.length ≤ head.length) : line.length ≤ (trimEnd head).length := by
  obtain ⟨gap, parts, blanks⟩ := Text.exists_eq_trimEnd_append head
  have lineInHead : line <+: head :=
    List.prefix_of_prefix_length_le isBreak.isPrefix (List.prefix_append head rest) within
  by_contra longer
  rw [Nat.not_le] at longer
  obtain ⟨more, rfl⟩ := List.prefix_of_prefix_length_le (Text.isPrefix_trimEnd head) lineInHead
    (Nat.le_of_lt longer)
  have present : more ≠ [] := by
    rintro rfl
    simp at longer
  have inGap : more <+: gap := by
    rw [← List.prefix_append_right_inj (trimEnd head), ← parts]
    exact lineInHead
  have last : more.getLast present ∈ (trimEnd head ++ more).getLast? := by
    rw [List.getLast?_append_of_ne_nil _ present]
    exact List.getLast?_eq_getLast_of_ne_nil present
  have blank := blanks _ (inGap.subset (List.getLast_mem present))
  cases blank.symm.trans (isBreak.solid _ last)

/-- No break ends inside a word, nor at its end when a character follows that is not blank. -/
theorem IsBreak.length_lt_of_solid (start : List Char) {word : List Char} {next : Char}
    (isBreak : IsBreak width (start ++ word ++ next :: rest) line)
    (solid : ∀ c ∈ word, isBlank c = false) (solidNext : isBlank next = false)
    (within : line.length ≤ (start ++ word).length) : line.length < start.length := by
  by_contra longer
  rw [Nat.not_lt] at longer
  have inside : line.length - start.length < (word ++ [next]).length := by
    simp only [List.length_append, List.length_singleton] at within ⊢
    omega
  have found : (start ++ word ++ next :: rest)[line.length]? =
      some (word ++ [next])[line.length - start.length] := by
    rw [List.append_assoc, List.append_cons, List.getElem?_append_right longer,
      List.getElem?_append_left inside, List.getElem?_eq_getElem inside]
  have blank := isBreak.followed _ found
  rcases List.mem_append.mp (List.getElem_mem inside) with inWord | isNext
  · cases blank.symm.trans (solid _ inWord)
  · rw [List.mem_singleton.mp isNext, solidNext] at blank
    cases blank

/-- When the width falls inside a word, a break ends before the character in front of that word. -/
theorem IsBreak.length_le_of_solid {start word : List Char} {gap next : Char}
    (isBreak : IsBreak width (start ++ gap :: word ++ next :: rest) line)
    (full : (start ++ gap :: word).length = width) (solid : ∀ c ∈ word, isBlank c = false)
    (solidNext : isBlank next = false) : line.length ≤ start.length := by
  have within : line.length ≤ (start ++ gap :: word).length := full ▸ isBreak.short
  rw [List.append_cons start gap word] at isBreak within
  have before := isBreak.length_lt_of_solid (start ++ [gap]) solid solidNext within
  rw [List.length_append, List.length_singleton] at before
  exact Nat.le_of_lt_succ before

/-- A text has no break when the width falls inside a word that only blanks stand before. -/
theorem not_isBreak_of_noWord {next : Char} (full : head.length = width)
    (solidNext : isBlank next = false)
    (noWord : ∀ start gap word, head = start ++ gap :: word → isBlank gap = true →
      (∀ c ∈ word, isBlank c = false) → trimEnd start = []) (other : List Char) :
    ¬IsBreak width (head ++ next :: rest) other := by
  intro isBreak
  rcases Text.solid_or_exists_last isBlank head with
    unbroken | ⟨start, gap, word, rfl, blank, solid⟩
  · have none := isBreak.length_lt_of_solid [] unbroken solidNext
      (isBreak.short.trans_eq full.symm)
    exact Nat.not_lt_zero _ none
  · have within := isBreak.length_le_of_solid full solid solidNext
    rw [List.append_assoc] at isBreak
    have none := isBreak.length_le_trimEnd within
    rw [noWord start gap word rfl blank solid] at none
    exact Nat.not_le_of_lt isBreak.length_pos none

/-! ## The cut -/

/-- A trimmed front part is the first line when no break goes beyond that part. -/
theorem isFirstLine_trimEnd (head rest : List Char) (short : head.length ≤ width)
    (followed : ∀ c ∈ rest.head?, isBlank c = true)
    (within : ∀ line, IsBreak width (head ++ rest) line → line.length ≤ head.length)
    (ends : trimEnd head = [] → ∀ c ∈ (head ++ rest)[width]?, isBlank c = true) :
    IsFirstLine width (head ++ rest) (trimEnd head) := by
  have greatest : ∀ line, IsBreak width (head ++ rest) line →
      line.length ≤ (trimEnd head).length :=
    fun line isBreak => isBreak.length_le_trimEnd (within line isBreak)
  by_cases present : trimEnd head = []
  · rw [present] at greatest ⊢
    have noBreak : ∀ line, ¬IsBreak width (head ++ rest) line := fun line isBreak =>
      Nat.not_le_of_lt isBreak.length_pos (greatest line isBreak)
    exact .empty noBreak (ends present)
  · exact .longest (isBreak_trimEnd present short followed) greatest

/-- Every cut leaves a first line. Three cuts trim a front part that no break goes beyond. The
fourth is made where there is no break. -/
theorem CutsTo.isFirstLine (cuts : CutsTo width text line) : IsFirstLine width text line := by
  cases cuts with
  | whole fits =>
      have first := isFirstLine_trimEnd text [] fits nofun
      rw [List.append_nil] at first
      refine first (fun other isBreak => isBreak.isPrefix.length_le) fun _ c found => ?_
      rw [List.getElem?_eq_none fits] at found
      cases found
  | @atBlank head rest next full blank =>
      have followed : ∀ c ∈ (next :: rest).head?, isBlank c = true := by
        rintro c ⟨⟩
        exact blank
      refine isFirstLine_trimEnd head _ (Nat.le_of_eq full) followed
        (fun other isBreak => isBreak.short.trans_eq full.symm) fun _ c found => ?_
      rw [← full, List.getElem?_append_right (Nat.le_refl _), Nat.sub_self] at found
      exact followed c found
  | @beforeWord start word rest gap next full solidNext blank solid present =>
      have within : ∀ other, IsBreak width (start ++ gap :: word ++ next :: rest) other →
          other.length ≤ start.length :=
        fun other isBreak => isBreak.length_le_of_solid full solid solidNext
      have short : start.length ≤ width := by
        rw [← full, List.length_append]
        exact Nat.le_add_right _ _
      rw [List.append_assoc] at within ⊢
      refine isFirstLine_trimEnd start _ short ?_ within fun empty => absurd empty present
      rintro c ⟨⟩
      exact blank
  | @inWord _ rest next full solidNext noWord =>
      have more : (line ++ next :: rest)[width]? = some next := by
        rw [← full, List.getElem?_append_right (Nat.le_refl _), Nat.sub_self,
          List.getElem?_cons_zero]
      have first := IsFirstLine.inWord (not_isBreak_of_noWord full solidNext noWord) more solidNext
      rw [List.take_left' full] at first
      exact first

/-- A row of a listing is the first line of its full row. -/
theorem isFirstLine_row (indexWidth textWidth : Nat) (line : AssembledLine) :
    IsFirstLine rowWidth (fullRow indexWidth textWidth line).toList
      (row indexWidth textWidth line).toList := by
  rw [row, String.toList_ofList]
  exact (cutsTo_firstLine rowWidth _).isFirstLine

end Breaks

/-! ## The cut by byte offsets -/

/-- The first line of a text wrapped at a width, cut out by byte offsets. It does not exist when
one of them falls inside a character. -/
def firstLineByOffsets? (width : Nat) (text : String) : Option String :=
  match (Text.offsetsFrom 0 text.toList)[width]? with
  | none => some (String.ofList (trimEnd text.toList))
  | some (limit, _) => do
      let head ← Text.sliceTo? text limit
      let tail ← Text.sliceFrom? text limit
      if tail.toList.head?.any isBlank then
        return String.ofList (trimEnd head.toList)
      else
        match Text.lastOffset? isBlank head with
        | none => return head
        | some gap => do
            let start ← Text.sliceTo? head gap
            let words := trimEnd start.toList
            return if words.isEmpty then head else String.ofList words

/-- No cut falls inside a character, and the line is the one that is cut out by characters. -/
theorem firstLineByOffsets?_ofList (width : Nat) (text : List Char) :
    firstLineByOffsets? width (String.ofList text) =
      some (String.ofList (firstLine width text)) := by
  rw [firstLineByOffsets?, String.toList_ofList]
  rcases Text.fits_or_exists_next width text with fits | ⟨head, next, rest, rfl, rfl⟩
  · have noOffset : (Text.offsetsFrom 0 text)[width]? = none := by
      rw [List.getElem?_eq_none_iff, Text.length_offsetsFrom]
      exact fits
    rw [noOffset, firstLine_of_fits fits]
  · -- The text is sliced at the end of its head, and the head at the end of its start.
    rw [Text.getElem?_offsetsFrom_append]
    simp only [String.ofList_append, Text.sliceTo?_rawEndPos, Text.sliceFrom?_rawEndPos,
      Option.bind_eq_bind, Option.bind_some, String.toList_ofList, List.head?_cons,
      Option.any_some]
    cases isNext : isBlank next with
    | true =>
        rw [firstLine_of_blank isNext]
        rfl
    | false =>
        rw [firstLine_of_solid isNext]
        rcases Text.solid_or_exists_last isBlank head with
          unbroken | ⟨start, gap, word, rfl, blank, solid⟩
        · rw [Text.lastOffset?_of_solid (by simpa using unbroken),
            Text.beforeLast?_of_solid unbroken]
          rfl
        · rw [Text.lastOffset?_append blank solid, Text.beforeLast?_append blank solid]
          simp only [Bool.false_eq_true, if_false, String.ofList_append,
            Text.sliceTo?_rawEndPos, Option.bind_some, String.toList_ofList, Option.elim_some]
          rw [← String.ofList_append]
          cases (trimEnd start).isEmpty <;> rfl

/-- A text is cut to the first line of its word wrap and to nothing else. That line is a front
part of the text that fits, and it ends between two characters or at the end of the text, so that
a cut by byte offsets has the same result. -/
theorem cut_is_first_line_of_wrap (width : Nat) (text : String) :
    ∃ line rest : String, line.toList = firstLine width text.toList ∧
      (∀ other, IsFirstLine width text.toList other ↔ other = line.toList) ∧
      text = line ++ rest ∧ line.length ≤ width ∧ line.rawEndPos.IsValid text ∧
      firstLineByOffsets? width text = some line := by
  have cuts := cutsTo_firstLine width text.toList
  obtain ⟨rest, parts⟩ := cuts.isPrefix
  have whole : text = String.ofList (firstLine width text.toList) ++ String.ofList rest := by
    rw [← String.ofList_append, parts, String.ofList_toList]
  refine ⟨String.ofList (firstLine width text.toList), String.ofList rest, String.toList_ofList,
    fun other => ?_, whole, ?_, ?_, ?_⟩
  · rw [String.toList_ofList]
    constructor
    · exact fun first => first.unique cuts.isFirstLine
    · rintro rfl
      exact cuts.isFirstLine
  · rw [String.length_ofList]
    exact cuts.length_le
  · exact String.Pos.Raw.isValid_iff_exists_append.mpr ⟨_, _, whole, rfl⟩
  · rw [← firstLineByOffsets?_ofList, String.ofList_toList]

example : firstLine 9 "one two three".toList = "one two".toList := by decide

example : firstLine 6 "  unbroken".toList = "  unbr".toList := by decide

end MiniatureMachine.Listing
