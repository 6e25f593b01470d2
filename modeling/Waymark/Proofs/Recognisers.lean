import Mathlib.Data.List.Basic
import Waymark.Note

/-!
# What the recognisers have in common, and what sets them apart

Each recogniser is tied to the character that its lines start with: headings to `#`,
fences to `-`, footers to `[`. From this it follows that the classes of lines do not
overlap. A heading's text is a part of its line, and the two recognisers of a
level-one heading agree.

## Main results

* `headingOfLine?_eq_none_of_head` — only lines that start with `#` are headings
* `titleOfLine?_eq_some_iff` — the two recognisers of a level-one heading agree
* `headingText_infix_line` — a heading's text is a part of its line
* `isMarkLine_iff`, `isMarkLine_self` — a mark line is the mark and blanks behind it
-/

namespace Waymark

/-! ### Headings -/

section Headings

variable {line : Line} {level : Nat} {text : List Char}

/-- Only lines that start with `#` are headings. -/
theorem headingOfLine?_eq_none_of_head (h : line.head? ≠ some '#') :
    headingOfLine? line = none := by
  have hlevel : line.takeWhile (· == '#') = [] := by
    cases line with
    | nil => rfl
    | cons c rest =>
      have hc : c ≠ '#' := fun hc => h (by simp [hc])
      simp [hc]
  simp [headingOfLine?, hlevel]

theorem isHeadingLine_iff : isHeadingLine line = true ↔
    ∃ level text, headingOfLine? line = some (level, text) := by
  rw [isHeadingLine, Option.isSome_iff_exists]
  exact Prod.exists

theorem isHeadingLine_eq_false_iff :
    isHeadingLine line = false ↔ headingOfLine? line = none := by
  simp [isHeadingLine]

theorem head?_of_headingOfLine? (h : headingOfLine? line = some (level, text)) :
    line.head? = some '#' := by
  by_contra hne
  rw [headingOfLine?_eq_none_of_head hne] at h
  cases h

theorem head?_of_isHeadingLine (h : isHeadingLine line = true) : line.head? = some '#' := by
  obtain ⟨level, text, h⟩ := isHeadingLine_iff.mp h
  exact head?_of_headingOfLine? h

theorem isHeadingLine_eq_false_of_head (h : line.head? ≠ some '#') :
    isHeadingLine line = false :=
  isHeadingLine_eq_false_iff.mpr (headingOfLine?_eq_none_of_head h)

theorem one_le_level (h : headingOfLine? line = some (level, text)) : 1 ≤ level := by
  simp only [headingOfLine?] at h
  split at h
  · next hrange =>
    obtain ⟨rest, -, hpair⟩ := Option.map_eq_some_iff.mp h
    simp only [Bool.and_eq_true, decide_eq_true_eq] at hrange
    rw [← (Prod.mk.inj hpair).1]
    exact hrange.1
  · cases h

theorem afterGap?_eq_none_of_head {c : Char} {rest : List Char} (h : isBlankChar c = false) :
    afterGap? (c :: rest) = none := by
  simp [afterGap?, h]

/-- The two recognisers of a level-one heading agree. -/
theorem titleOfLine?_eq_some_iff :
    titleOfLine? line = some text ↔ headingOfLine? line = some (1, text) := by
  match line with
  | [] => simp [titleOfLine?, headingOfLine?]
  | c :: rest =>
    by_cases hc : c = '#'
    · subst hc
      by_cases hnext : rest.head? = some '#'
      · -- A second hash makes the level two or more, and is no gap.
        obtain ⟨more, rfl⟩ : ∃ more, rest = '#' :: more := by
          cases rest with
          | nil => simp at hnext
          | cons d more => exact ⟨more, by simpa using hnext⟩
        have hgap : afterGap? ('#' :: more) = none := afterGap?_eq_none_of_head (by decide)
        simp only [titleOfLine?, hgap, Option.map_none, reduceCtorEq, false_iff]
        intro h
        simp only [headingOfLine?, List.takeWhile_cons, beq_self_eq_true, if_true] at h
        split at h
        · obtain ⟨x, -, hpair⟩ := Option.map_eq_some_iff.mp h
          have := (Prod.mk.inj hpair).1
          simp at this
        · cases h
      · have hrest : rest.takeWhile (· == '#') = [] := by
          cases rest with
          | nil => rfl
          | cons d more =>
            have hd : d ≠ '#' := fun hd => hnext (by simp [hd])
            simp [hd]
        simp [titleOfLine?, headingOfLine?, hrest, Option.map_eq_some_iff]
    · rw [headingOfLine?_eq_none_of_head (by simpa using hc)]
      have : titleOfLine? (c :: rest) = none := by
        unfold titleOfLine?
        split
        · next h => exact absurd (List.cons.inj h).1 hc
        · rfl
      simp [this]

theorem titleOfLine?_eq_none_of_isHeadingLine (h : isHeadingLine line = false) :
    titleOfLine? line = none := by
  cases ht : titleOfLine? line with
  | none => rfl
  | some text =>
    rw [isHeadingLine_eq_false_iff, titleOfLine?_eq_some_iff.mp ht] at h
    cases h

/-- A title that is not empty makes a level-one heading. -/
theorem isSome_titleOfLine?_titleLine {title : List Char} (h : startsText title = true) :
    (titleOfLine? (titleLine title)).isSome = true := by
  have hblank : isBlankChar ' ' = true := by decide
  simp [titleOfLine?, titleLine, afterGap?, hblank, h]

theorem afterGap?_isSuffix {rest gap : List Char} (h : afterGap? gap = some rest) :
    rest <:+ gap := by
  induction gap with
  | nil => simp [afterGap?] at h
  | cons c gap ih =>
    simp only [afterGap?] at h
    split at h
    · cases hgap : afterGap? gap with
      | some more =>
        simp only [hgap, Option.some_or, Option.some.injEq] at h
        exact (ih (h ▸ hgap)).trans (List.suffix_cons c gap)
      | none =>
        simp only [hgap, Option.none_or, Option.ite_none_right_eq_some, Option.some.injEq] at h
        exact h.2 ▸ List.suffix_cons c gap
    · cases h

theorem withoutClosingHashes_isPrefix (text : List Char) : withoutClosingHashes text <+: text := by
  induction text with
  | nil => exact List.prefix_rfl
  | cons c rest ih =>
    rw [withoutClosingHashes]
    split
    · exact List.nil_prefix
    · exact (List.prefix_cons_inj c).mpr ih

theorem headingText_isPrefix (rest : List Char) : headingText rest <+: rest :=
  (withoutClosingHashes_isPrefix _).trans (List.takeWhile_prefix _)

/-- A heading's text is a part of its line. -/
theorem headingText_infix_line (h : headingOfLine? line = some (level, text)) :
    text <:+: line := by
  simp only [headingOfLine?] at h
  split at h
  · obtain ⟨rest, hgap, hpair⟩ := Option.map_eq_some_iff.mp h
    rw [← (Prod.mk.inj hpair).2]
    exact (headingText_isPrefix rest).isInfix.trans
      ((afterGap?_isSuffix hgap).trans (List.drop_suffix _ _)).isInfix
  · cases h

end Headings

/-! ### Blank lines, fences, rule lines and footers -/

section Plain

variable {line : Line}

theorem isBlank_eq_false_of_head {c : Char} (hhead : line.head? = some c)
    (hc : isBlankChar c = false) : isBlank line = false := by
  cases line with
  | nil => simp at hhead
  | cons d rest =>
    obtain rfl : d = c := by simpa using hhead
    simp [isBlank, hc]

theorem isBlank_eq_false_of_isHeadingLine (h : isHeadingLine line = true) :
    isBlank line = false :=
  isBlank_eq_false_of_head (head?_of_isHeadingLine h) (by decide)

theorem isHeadingLine_eq_false_of_isBlank (h : isBlank line = true) :
    isHeadingLine line = false := by
  by_contra hne
  rw [isBlank_eq_false_of_isHeadingLine (by simpa using hne)] at h
  cases h

theorem isMarkLine_iff {mark : List Char} :
    isMarkLine mark line = true ↔ ∃ rest, line = mark ++ rest ∧ isBlank rest = true := by
  cases h : after? mark line with
  | none =>
    have hne : ∀ rest, line ≠ mark ++ rest := fun rest heq => by
      rw [after?_eq_some_iff.mpr heq] at h
      cases h
    simp [isMarkLine, h, hne]
  | some rest =>
    obtain rfl := after?_eq_some_iff.mp h
    simp [isMarkLine, h]

theorem head?_of_isMarkLine {mark : List Char} {c : Char} (hmark : mark.head? = some c)
    (h : isMarkLine mark line = true) : line.head? = some c := by
  obtain ⟨rest, rfl, -⟩ := isMarkLine_iff.mp h
  rw [List.head?_append, hmark]
  rfl

/-- Only a blank mark is met by a blank line. -/
theorem isBlank_eq_false_of_isMarkLine {mark : List Char} (hmark : isBlank mark = false)
    (h : isMarkLine mark line = true) : isBlank line = false := by
  obtain ⟨rest, rfl, -⟩ := isMarkLine_iff.mp h
  rw [isBlank, List.all_append, ← isBlank, hmark, Bool.false_and]

theorem isMarkLine_self (mark : List Char) : isMarkLine mark mark = true :=
  isMarkLine_iff.mpr ⟨[], by simp, rfl⟩

theorem head?_of_isFence (h : isFence line = true) : line.head? = some '-' :=
  head?_of_isMarkLine rfl h

theorem isBlank_eq_false_of_isFence (h : isFence line = true) : isBlank line = false :=
  isBlank_eq_false_of_head (head?_of_isFence h) (by decide)

theorem isHeadingLine_eq_false_of_isFence (h : isFence line = true) :
    isHeadingLine line = false :=
  isHeadingLine_eq_false_of_head (by simp [head?_of_isFence h])

theorem isFence_eq_false_of_isHeadingLine (h : isHeadingLine line = true) :
    isFence line = false := by
  by_contra hfence
  rw [isHeadingLine_eq_false_of_isFence (by simpa using hfence)] at h
  cases h

theorem head?_of_isFooterLine (h : isFooterLine line = true) : line.head? = some '[' := by
  simp only [isFooterLine, Option.bind_eq_bind, beq_iff_eq] at h
  obtain ⟨rest, hrest, -⟩ := Option.bind_eq_some_iff.mp h
  rw [after?_eq_some_iff] at hrest
  rw [hrest]
  rfl

theorem isFooterLine_eq_false_of_head (h : line.head? ≠ some '[') : isFooterLine line = false := by
  by_contra hne
  exact h (head?_of_isFooterLine (by simpa using hne))

theorem isHeadingLine_eq_false_of_isFooterLine (h : isFooterLine line = true) :
    isHeadingLine line = false :=
  isHeadingLine_eq_false_of_head (by simp [head?_of_isFooterLine h])

theorem isFooterLine_eq_false_of_isHeadingLine (h : isHeadingLine line = true) :
    isFooterLine line = false :=
  isFooterLine_eq_false_of_head (by simp [head?_of_isHeadingLine h])

theorem isBlank_eq_false_of_isFooterLine (h : isFooterLine line = true) : isBlank line = false :=
  isBlank_eq_false_of_head (head?_of_isFooterLine h) (by decide)

theorem isFooterLine_eq_false_of_isBlank (h : isBlank line = true) : isFooterLine line = false := by
  by_contra hne
  rw [isBlank_eq_false_of_isFooterLine (by simpa using hne)] at h
  cases h

theorem not_mem_of_after? {literal text rest : List Char} {c : Char}
    (h : after? literal text = some rest) (hliteral : c ∉ literal) (hrest : c ∉ rest) :
    c ∉ text := by
  rw [after?_eq_some_iff.mp h, List.mem_append]
  tauto

theorem not_mem_of_not_mem_trimStart {text : List Char} {c : Char} (hc : isBlankChar c = false)
    (h : c ∉ trimStart text) : c ∉ text := by
  have hparts : text.takeWhile isBlankChar ++ trimStart text = text :=
    List.takeWhile_append_dropWhile
  rw [← hparts, List.mem_append, not_or]
  refine ⟨fun hmem => ?_, h⟩
  rw [List.all_eq_true.mp List.all_takeWhile c hmem] at hc
  cases hc

theorem not_mem_of_not_mem_withoutCaret {text : List Char} {c : Char} (hc : c ≠ '^')
    (h : c ∉ withoutCaret text) : c ∉ text := by
  unfold withoutCaret at h
  split at h
  · simp [hc, h]
  · exact h

/-- A link of a footer holds the characters of its words and blanks. -/
theorem not_mem_of_isFooterLine {c : Char} (hc : isBlankChar c = false) (hcaret : c ≠ '^')
    (hwords : c ∉ "[[#top|↩️Back to Top]]".toList) (h : isFooterLine line = true) : c ∉ line := by
  have hwords' : c ∉ "[[#".toList ∧ c ∉ "top|".toList ∧ c ∉ "↩️".toList ∧
      c ∉ "Back to Top]]".toList := by
    simp at hwords ⊢
    tauto
  obtain ⟨hopen, htop, harrow, hback⟩ := hwords'
  simp only [isFooterLine, beq_iff_eq, Option.bind_eq_bind, Option.bind_eq_some_iff] at h
  obtain ⟨first, hfirst, second, hsecond, third, hthird, hfourth⟩ := h
  have hnil : c ∉ ([] : List Char) := List.not_mem_nil
  have h3 := not_mem_of_not_mem_trimStart hc (not_mem_of_after? hfourth hback hnil)
  have h2 := not_mem_of_not_mem_trimStart hc (not_mem_of_after? hthird harrow h3)
  have h1 := not_mem_of_not_mem_trimStart hc
    (not_mem_of_not_mem_withoutCaret hcaret (not_mem_of_after? hsecond htop h2))
  exact not_mem_of_after? hfirst hopen h1

end Plain

end Waymark
