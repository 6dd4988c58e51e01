import Mathlib.Data.List.Induction
import Mathlib.Data.List.TakeWhile
import MiniatureMachine.Assembly.Listing
import MiniatureMachine.Proofs.Assembly.Grammar

/-!
Contract: where a text is cut to the first line of a word wrap.

Owns:
- what stands in a text before its last separator, and before a width;
- the four ways in which a text is cut at a width;
- what every cut leaves: a part of the text that fits, that ends in no blank, and that keeps
  what is set off by a blank in front of the width.

The cuts are gone through once, in `cutsTo_firstLine`. Everything else is read off the relation.
-/

namespace MiniatureMachine

namespace Text

theorem isPrefix_trimEnd (text : List Char) : trimEnd text <+: text := by
  obtain ⟨gap, parts, -⟩ := exists_eq_trimEnd_append text
  exact ⟨gap, parts.symm⟩

/-- A text that does not end in a blank is not trimmed, whatever follows it. -/
theorem isPrefix_trimEnd_append {front : List Char}
    (solid : ∀ c ∈ front.getLast?, isBlank c = false) (back : List Char) :
    front <+: trimEnd (front ++ back) := by
  cases front using List.reverseRecOn with
  | nil => exact List.nil_prefix
  | append_singleton front last =>
      obtain ⟨kept, trimmed⟩ := exists_trimEnd_append (solid last (by simp)) front back
      rw [List.append_assoc, List.singleton_append, trimmed]
      exact ⟨kept, by simp⟩

theorem beforeLast?_append {α : Type} {isSeparator : α → Bool} {separator : α} {rest : List α}
    (separates : isSeparator separator = true) (solid : ∀ c ∈ rest, isSeparator c = false)
    (start : List α) : beforeLast? isSeparator (start ++ separator :: rest) = some start := by
  have behind : ∀ c ∈ rest.reverse, (!isSeparator c) = true := by simpa using solid
  rw [beforeLast?, List.reverse_append, List.reverse_cons, List.append_assoc,
    List.dropWhile_append_of_pos behind]
  simp [separates]

theorem beforeLast?_of_solid {α : Type} {isSeparator : α → Bool} {text : List α}
    (solid : ∀ c ∈ text, isSeparator c = false) : beforeLast? isSeparator text = none := by
  have nothing : text.reverse.dropWhile (fun c => !isSeparator c) = [] := by
    rw [List.dropWhile_eq_nil_iff]
    simpa using solid
  rw [beforeLast?, nothing]

/-- A text has a last separator, or none. -/
theorem solid_or_exists_last {α : Type} (isSeparator : α → Bool) (text : List α) :
    (∀ c ∈ text, isSeparator c = false) ∨
      ∃ start separator rest, text = start ++ separator :: rest ∧
        isSeparator separator = true ∧ ∀ c ∈ rest, isSeparator c = false := by
  induction text using List.reverseRecOn with
  | nil => exact .inl nofun
  | append_singleton text last inductionHypothesis =>
      cases separates : isSeparator last with
      | true => exact .inr ⟨text, last, [], rfl, separates, nofun⟩
      | false =>
          rcases inductionHypothesis with solid | ⟨start, separator, rest, rfl, found, solid⟩
          · exact .inl (by simpa [or_imp, forall_and] using ⟨solid, separates⟩)
          · refine .inr ⟨start, separator, rest ++ [last], by simp, found, ?_⟩
            simpa [or_imp, forall_and] using ⟨solid, separates⟩

/-- A text fits into a width, or something follows the part of it that is as wide. -/
theorem fits_or_exists_next {α : Type} (width : Nat) (text : List α) :
    text.length ≤ width ∨
      ∃ head next rest, text = head ++ next :: rest ∧ head.length = width := by
  rcases Nat.lt_or_ge width text.length with long | fits
  · refine .inr ⟨text.take width, text[width], text.drop (width + 1), ?_,
      List.length_take_of_le (Nat.le_of_lt long)⟩
    rw [← List.drop_eq_getElem_cons long, List.take_append_drop]
  · exact .inl fits

end Text

namespace Listing

open Text (isBlank trimEnd)

/-! ## The cuts -/

theorem firstLine_of_fits {width : Nat} {text : List Char} (fits : text.length ≤ width) :
    firstLine width text = trimEnd text := by
  rw [firstLine, List.drop_eq_nil_of_le fits]

theorem firstLine_of_blank {next : Char} (blank : isBlank next = true) (head rest : List Char) :
    firstLine head.length (head ++ next :: rest) = trimEnd head := by
  simp only [firstLine, List.drop_left, List.take_left, blank, if_true]

theorem firstLine_of_solid {next : Char} (solid : isBlank next = false) (head rest : List Char) :
    firstLine head.length (head ++ next :: rest) =
      (Text.beforeLast? isBlank head).elim head fun start =>
        if (trimEnd start).isEmpty then head else trimEnd start := by
  simp only [firstLine, List.drop_left, List.take_left, solid, Bool.false_eq_true, if_false]
  cases Text.beforeLast? isBlank head <;> rfl

/-- What a text is cut to at a width. A text that is too long is cut at the width, when a
blank follows there; else after the last word that ends before it; and else, when no word
does, in the middle of a word. -/
inductive CutsTo (width : Nat) : (text result : List Char) → Prop
  | whole {text : List Char} (fits : text.length ≤ width) : CutsTo width text (trimEnd text)
  | atBlank {head rest : List Char} {next : Char} (full : head.length = width)
      (blank : isBlank next = true) : CutsTo width (head ++ next :: rest) (trimEnd head)
  | beforeWord {start word rest : List Char} {gap next : Char}
      (full : (start ++ gap :: word).length = width) (solidNext : isBlank next = false)
      (blank : isBlank gap = true) (solid : ∀ c ∈ word, isBlank c = false)
      (present : trimEnd start ≠ []) :
      CutsTo width ((start ++ gap :: word) ++ next :: rest) (trimEnd start)
  | inWord {head rest : List Char} {next : Char} (full : head.length = width)
      (solidNext : isBlank next = false)
      (noWord : ∀ start gap word, head = start ++ gap :: word → isBlank gap = true →
        (∀ c ∈ word, isBlank c = false) → trimEnd start = []) :
      CutsTo width (head ++ next :: rest) head

theorem cutsTo_firstLine (width : Nat) (text : List Char) :
    CutsTo width text (firstLine width text) := by
  rcases Text.fits_or_exists_next width text with fits | ⟨head, next, rest, rfl, rfl⟩
  · rw [firstLine_of_fits fits]
    exact .whole fits
  · cases isNext : isBlank next with
    | true =>
        rw [firstLine_of_blank isNext]
        exact .atBlank rfl isNext
    | false =>
        rw [firstLine_of_solid isNext]
        rcases Text.solid_or_exists_last isBlank head with
          unbroken | ⟨start, gap, word, rfl, blank, solid⟩
        · rw [Text.beforeLast?_of_solid unbroken, Option.elim_none]
          refine .inWord rfl isNext ?_
          rintro start gap word rfl blank -
          cases blank.symm.trans (unbroken gap (by simp))
        · rw [Text.beforeLast?_append blank solid, Option.elim_some]
          split
          · rename_i empty
            refine .inWord rfl isNext fun start' gap' word' same blank' solid' => ?_
            have sameStart := Text.beforeLast?_append blank' solid' start'
            rw [← same, Text.beforeLast?_append blank solid] at sameStart
            rw [← Option.some.inj sameStart]
            exact List.isEmpty_iff.mp empty
          · rename_i present
            exact .beforeWord rfl isNext blank solid (by simpa using present)

variable {width : Nat} {text result : List Char}

theorem CutsTo.isPrefix (cuts : CutsTo width text result) : result <+: text := by
  cases cuts with
  | whole => exact Text.isPrefix_trimEnd text
  | atBlank => exact (Text.isPrefix_trimEnd _).trans (List.prefix_append _ _)
  | beforeWord =>
      rw [List.append_assoc]
      exact (Text.isPrefix_trimEnd _).trans (List.prefix_append _ _)
  | inWord => exact List.prefix_append _ _

theorem CutsTo.length_le (cuts : CutsTo width text result) : result.length ≤ width := by
  cases cuts with
  | whole fits => exact Nat.le_trans (Text.isPrefix_trimEnd text).length_le fits
  | atBlank full => exact full ▸ (Text.isPrefix_trimEnd _).length_le
  | @beforeWord start word rest gap next full =>
      have shorter := (Text.isPrefix_trimEnd start).length_le
      rw [List.length_append] at full
      omega
  | inWord full => exact Nat.le_of_eq full

/-- A text that does not begin with a blank is cut to one that does not end in a blank. -/
theorem CutsTo.solid_getLast? (cuts : CutsTo width text result)
    (begins : ∀ c ∈ text.head?, isBlank c = false) :
    ∀ c ∈ result.getLast?, isBlank c = false := by
  cases cuts with
  | whole | atBlank | beforeWord => exact fun c => Text.isBlank_of_getLast?_trimEnd
  | inWord full solidNext noWord =>
      intro c last
      obtain ⟨start, rfl⟩ := List.getLast?_eq_some_iff.mp last
      cases blank : isBlank c with
      | false => rfl
      | true =>
          -- With a blank at its end, the text would begin with blanks.
          have blanks := noWord start c [] rfl blank nofun
          obtain ⟨gap, parts, inGap⟩ := Text.exists_eq_trimEnd_append start
          rw [blanks, List.nil_append] at parts
          subst parts
          cases start with
          | nil => exact blank.symm.trans (begins c rfl)
          | cons first start =>
              cases (inGap first List.mem_cons_self).symm.trans (begins first rfl)

/-- What does not end in a blank itself, and is set off by a blank before the width, is kept
whole. -/
theorem CutsTo.keeps {front back : List Char} {gap : Char}
    (cuts : CutsTo width (front ++ gap :: back) result) (blank : isBlank gap = true)
    (solid : ∀ c ∈ front.getLast?, isBlank c = false) (early : front.length < width) :
    front <+: result := by
  -- What is cut off behind the width leaves the front and its blank.
  have within : ∀ {head rest : List Char}, front ++ gap :: back = head ++ rest →
      head.length = width → front ++ [gap] <+: head := by
    intro head rest parts full
    refine List.prefix_of_prefix_length_le ⟨back, ?_⟩ ⟨rest, parts.symm⟩ ?_
    · simp
    · simp only [List.length_append, List.length_singleton]
      omega
  generalize parts : front ++ gap :: back = text at cuts
  cases cuts with
  | whole =>
      rw [← parts]
      exact Text.isPrefix_trimEnd_append solid _
  | atBlank full =>
      obtain ⟨more, rfl⟩ := within parts full
      rw [List.append_assoc]
      exact Text.isPrefix_trimEnd_append solid _
  | @beforeWord start word rest gap' next full solidNext blank' solidWord present =>
      obtain ⟨more, sameHead⟩ := within parts full
      rw [List.append_assoc, List.singleton_append] at sameHead
      rcases List.append_eq_append_iff.mp sameHead with
        ⟨between, rfl, -⟩ | ⟨between, rfl, behind⟩
      · exact Text.isPrefix_trimEnd_append solid between
      · cases between with
        | nil => simpa using Text.isPrefix_trimEnd_append solid []
        | cons first between =>
            obtain ⟨-, rfl⟩ := List.cons.inj behind
            cases blank.symm.trans (solidWord gap (by simp))
  | inWord full =>
      exact (List.prefix_append _ _).trans (within parts full)

end Listing

end MiniatureMachine
