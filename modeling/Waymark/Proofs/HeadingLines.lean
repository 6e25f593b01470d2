import Mathlib.Data.List.Find
import Mathlib.Data.List.TakeWhile
import Waymark.Proofs.Outline

/-!
# Heading lines told by their parts

A heading line can be cut into hashes, blanks and a text in more than one way: the blanks may go on
into the text, and several tails of the text are hashes with blanks around them. The recogniser
goes from the front and takes what comes first. Here a heading is told by its parts instead, with
the longest gap and the longest tail among all that there are, and the two agree on every line.

The title heading has a recogniser of its own. It finds the first level-one heading that is listed.

## Main definitions

* `IsGap`, `IsLongestGap` — blanks behind which a heading's text can start
* `IsClosing`, `IsLongestClosing` — blanks, hashes and blanks that end a text
* `IsHeading` — a line as hashes, a gap and a text

## Main results

* `afterGap?_eq_some_iff` — the gap that is taken is the longest one
* `withoutClosingHashes_eq_iff` — the tail that is removed is the longest one
* `headingOfLine?_eq_some_iff` — a line is a heading exactly if it has the parts of one
* `findTitle_eq_find?` — the title is the first level-one heading that is listed
* `headings_exact` — all of this, told of the list of headings
-/

namespace Waymark

/-! ### The gap behind the hashes -/

section Gaps

variable {c : Char} {text gap rest rest' : List Char}

/-- The text is a run of blanks and a rest that can be the text of a heading. -/
structure IsGap (text gap rest : List Char) : Prop where
  cut : text = gap ++ rest
  ne_nil : gap ≠ []
  blank : ∀ c ∈ gap, isBlankChar c = true
  /-- The rest starts with a character that is no line feed. It may be another blank. -/
  starts : ∃ c more, rest = c :: more ∧ c ≠ '\n'

/-- The gap is the longest one in front of the text. -/
structure IsLongestGap (text gap rest : List Char) : Prop extends IsGap text gap rest where
  longest : ∀ gap' rest', IsGap text gap' rest' → gap'.length ≤ gap.length

theorem startsText_iff : startsText text = true ↔ ∃ c more, text = c :: more ∧ c ≠ '\n' := by
  cases text with
  | nil => simp [startsText]
  | cons c more => simp [startsText]

/-- A gap ends behind its first blank, or it is one more blank on a gap. -/
theorem isGap_cons_iff : IsGap (c :: text) gap rest ↔ isBlankChar c = true ∧
    ((gap = [c] ∧ rest = text ∧ startsText text = true) ∨
      ∃ behind, gap = c :: behind ∧ IsGap text behind rest) := by
  constructor
  · rintro ⟨hcut, hne, hblank, hstarts⟩
    obtain ⟨d, behind, rfl⟩ := List.exists_cons_of_ne_nil hne
    obtain ⟨rfl, rfl⟩ := List.cons.inj hcut
    refine ⟨hblank c List.mem_cons_self, ?_⟩
    by_cases hnone : behind = []
    · subst hnone
      exact Or.inl ⟨rfl, rfl, startsText_iff.mpr hstarts⟩
    · have hbehind : ∀ d ∈ behind, isBlankChar d = true := fun d hd =>
        hblank d (List.mem_cons_of_mem _ hd)
      exact Or.inr ⟨behind, rfl, rfl, hnone, hbehind, hstarts⟩
  · rintro ⟨hc, ⟨rfl, rfl, hstarts⟩ | ⟨behind, rfl, rfl, hne, hblank, hstarts⟩⟩
    · exact ⟨rfl, by simp, by simpa using hc, startsText_iff.mp hstarts⟩
    · exact ⟨rfl, by simp, List.forall_mem_cons.mpr ⟨hc, hblank⟩, hstarts⟩

theorem not_isGap_nil : ¬ IsGap [] gap rest :=
  fun h => h.ne_nil (List.append_eq_nil_iff.mp h.cut.symm).1

theorem afterGap?_eq_none_iff : afterGap? text = none ↔ ∀ gap rest, ¬ IsGap text gap rest := by
  induction text with
  | nil => simp [afterGap?, not_isGap_nil]
  | cons c text ih =>
    by_cases hc : isBlankChar c = true
    · have hstep : afterGap? (c :: text) = none ↔
          afterGap? text = none ∧ startsText text = false := by
        simp [afterGap?, hc]
      rw [hstep, ih]
      constructor
      · rintro ⟨hbehind, hstarts⟩ gap rest hgap
        obtain ⟨-, ⟨-, -, htrue⟩ | ⟨behind, -, hgap⟩⟩ := isGap_cons_iff.mp hgap
        · rw [hstarts] at htrue
          cases htrue
        · exact hbehind behind rest hgap
      · intro hnone
        refine ⟨fun behind rest hgap => hnone (c :: behind) rest ?_, ?_⟩
        · exact isGap_cons_iff.mpr ⟨hc, Or.inr ⟨behind, rfl, hgap⟩⟩
        · by_contra hstarts
          refine hnone [c] text (isGap_cons_iff.mpr ⟨hc, Or.inl ⟨rfl, rfl, ?_⟩⟩)
          simpa using hstarts
    · simp [afterGap?, isGap_cons_iff, hc]

theorem exists_isLongestGap (h : afterGap? text = some rest) :
    ∃ gap, IsLongestGap text gap rest := by
  -- Along the blanks: the recogniser prefers what it finds behind the next one.
  induction text generalizing rest with
  | nil => cases h
  | cons c text ih =>
    rw [afterGap?] at h
    split at h
    next hc =>
      cases hbehind : afterGap? text with
      | some more =>
        -- A gap behind this blank is found, so the longest one is the blank and that gap.
        obtain rfl : more = rest := by simpa [hbehind] using h
        obtain ⟨behind, hgap⟩ := ih hbehind
        refine ⟨c :: behind, isGap_cons_iff.mpr ⟨hc, Or.inr ⟨behind, rfl, hgap.toIsGap⟩⟩, ?_⟩
        intro gap' rest' hgap'
        obtain ⟨-, ⟨rfl, -, -⟩ | ⟨behind', rfl, hbehind'⟩⟩ := isGap_cons_iff.mp hgap'
        · simp
        · simpa using hgap.longest behind' rest' hbehind'
      | none =>
        -- No gap goes on behind this blank, so it is the only one.
        obtain ⟨hstarts, rfl⟩ : startsText text = true ∧ text = rest := by simpa [hbehind] using h
        refine ⟨[c], isGap_cons_iff.mpr ⟨hc, Or.inl ⟨rfl, rfl, hstarts⟩⟩, ?_⟩
        intro gap' rest' hgap'
        obtain ⟨-, ⟨rfl, -, -⟩ | ⟨behind', -, hbehind'⟩⟩ := isGap_cons_iff.mp hgap'
        · exact Nat.le_refl _
        · exact absurd hbehind' (afterGap?_eq_none_iff.mp hbehind behind' rest')
    next => cases h

theorem IsLongestGap.unique {gap' : List Char} (h : IsLongestGap text gap rest)
    (h' : IsLongestGap text gap' rest') : gap = gap' ∧ rest = rest' := by
  have hlength : gap.length = gap'.length :=
    Nat.le_antisymm (h'.longest gap rest h.toIsGap) (h.longest gap' rest' h'.toIsGap)
  exact List.append_inj (h.cut.symm.trans h'.cut) hlength

/-- What follows the gap is found exactly if there is a gap, and then behind the longest one. -/
theorem afterGap?_eq_some_iff : afterGap? text = some rest ↔ ∃ gap, IsLongestGap text gap rest := by
  refine ⟨exists_isLongestGap, ?_⟩
  rintro ⟨gap, hgap⟩
  cases h : afterGap? text with
  | none => exact absurd hgap.toIsGap (afterGap?_eq_none_iff.mp h gap rest)
  | some rest' =>
    obtain ⟨gap', hgap'⟩ := exists_isLongestGap h
    rw [(hgap'.unique hgap).2]

end Gaps

/-! ### Closing hashes -/

section Closings

variable {c : Char} {text kept kept' closing closing' : List Char}

/-- Blanks, then hashes, then blanks. Each of the three runs may be empty. -/
def IsClosing (closing : List Char) : Prop :=
  ∃ before hashes after, closing = before ++ (hashes ++ after) ∧
    (∀ c ∈ before, isBlankChar c = true) ∧ (∀ c ∈ hashes, c = '#') ∧
    ∀ c ∈ after, isBlankChar c = true

/-- The text is cut before its longest closing tail. -/
structure IsLongestClosing (text kept closing : List Char) : Prop where
  cut : text = kept ++ closing
  closes : IsClosing closing
  longest : ∀ kept' closing', text = kept' ++ closing' → IsClosing closing' →
    closing'.length ≤ closing.length

theorem isClosingHashes_iff : isClosingHashes text = true ↔ IsClosing text := by
  rw [isClosingHashes, isBlank, List.all_eq_true]
  constructor
  · intro hafter
    refine ⟨text.takeWhile isBlankChar, (trimStart text).takeWhile (· == '#'), _, ?_,
      fun c hc => List.mem_takeWhile_imp hc, fun c hc => ?_, hafter⟩
    · rw [List.takeWhile_append_dropWhile, trimStart, List.takeWhile_append_dropWhile]
    · simpa using List.mem_takeWhile_imp hc
  · rintro ⟨before, hashes, after, rfl, hbefore, hhashes, hafter⟩
    rw [trimStart, List.dropWhile_append_of_pos hbefore]
    cases hashes with
    | nil =>
      have hnone : after.dropWhile isBlankChar = [] := List.dropWhile_eq_nil_iff.mpr hafter
      simp [hnone]
    | cons c hashes =>
      -- The first hash ends the blanks in front, and all hashes are then dropped.
      obtain ⟨rfl, -⟩ := List.forall_mem_cons.mp hhashes
      have hhash : isBlankChar '#' = false := by decide
      rw [List.cons_append, List.dropWhile_cons_of_neg (by simp [hhash]), ← List.cons_append,
        List.dropWhile_append_of_pos (by simpa using hhashes)]
      exact fun c hc => hafter c ((List.dropWhile_suffix _).subset hc)

theorem exists_isLongestClosing (text : List Char) :
    ∃ closing, IsLongestClosing text (withoutClosingHashes text) closing := by
  fun_induction withoutClosingHashes text with
  | case1 =>
    refine ⟨[], rfl, isClosingHashes_iff.mp rfl, ?_⟩
    rintro kept' closing' hcut -
    rw [(List.append_eq_nil_iff.mp hcut.symm).2]
  | case2 c rest hclosing =>
    -- No tail is longer than the text itself.
    refine ⟨c :: rest, rfl, isClosingHashes_iff.mp hclosing, ?_⟩
    rintro kept' closing' hcut -
    rw [hcut, List.length_append]
    exact Nat.le_add_left _ _
  | case3 c rest hnot ih =>
    -- The whole text is no closing tail, so every one of them is a tail of the rest.
    obtain ⟨closing, hcut, hcloses, hlongest⟩ := ih
    refine ⟨closing, by rw [List.cons_append, ← hcut], hcloses, ?_⟩
    intro kept' closing' hcut' hcloses'
    cases kept' with
    | nil =>
      rw [List.nil_append] at hcut'
      exact absurd (isClosingHashes_iff.mpr (hcut' ▸ hcloses')) hnot
    | cons d kept' => exact hlongest kept' closing' (List.cons.inj hcut').2 hcloses'

theorem IsLongestClosing.unique (h : IsLongestClosing text kept closing)
    (h' : IsLongestClosing text kept' closing') : kept = kept' ∧ closing = closing' := by
  have hlength : closing.length = closing'.length :=
    Nat.le_antisymm (h'.longest kept closing h.cut h.closes)
      (h.longest kept' closing' h'.cut h'.closes)
  exact List.append_inj' (h.cut.symm.trans h'.cut) hlength

/-- A text keeps what stands before its longest closing tail. -/
theorem withoutClosingHashes_eq_iff :
    withoutClosingHashes text = kept ↔ ∃ closing, IsLongestClosing text kept closing := by
  obtain ⟨closing, h⟩ := exists_isLongestClosing text
  constructor
  · rintro rfl
    exact ⟨closing, h⟩
  · rintro ⟨closing', h'⟩
    exact (h.unique h').1

end Closings

/-! ### Headings -/

section Headings

variable {line : Line} {lines : Buffer} {level : Nat} {text : List Char}

/-- The line is a heading of the given level and text: so many hashes, the longest gap behind them
and a rest, whose text ends before a line feed and before its closing hashes. -/
def IsHeading (line : Line) (level : Nat) (text : List Char) : Prop :=
  1 ≤ level ∧ level ≤ 6 ∧ ∃ behind gap rest closing,
    line = List.replicate level '#' ++ behind ∧ IsLongestGap behind gap rest ∧
      IsLongestClosing (rest.takeWhile (· != '\n')) text closing

theorem eq_hashes_append (line : Line) :
    line = List.replicate (line.takeWhile (· == '#')).length '#' ++
      line.drop (line.takeWhile (· == '#')).length := by
  have hhashes :
      List.replicate (line.takeWhile (· == '#')).length '#' = line.takeWhile (· == '#') :=
    (List.eq_replicate_iff.mpr ⟨rfl, fun c hc => by simpa using List.mem_takeWhile_imp hc⟩).symm
  rw [hhashes]
  exact (List.prefix_iff_eq_append.mp (List.takeWhile_prefix _)).symm

/-- A gap starts with a blank, so the hashes in front of it are all that there are. -/
theorem takeWhile_hashes_append {behind gap rest : List Char} (h : IsGap behind gap rest) :
    (List.replicate level '#' ++ behind).takeWhile (· == '#') = List.replicate level '#' := by
  have hhash : isBlankChar '#' = false := by decide
  have hstop : behind.takeWhile (· == '#') = [] := by
    obtain ⟨c, more, rfl⟩ := List.exists_cons_of_ne_nil h.ne_nil
    have hc : c ≠ '#' := by
      rintro rfl
      rw [h.blank '#' List.mem_cons_self] at hhash
      cases hhash
    rw [h.cut, List.cons_append, List.takeWhile_cons_of_neg (by simpa using hc)]
  rw [List.takeWhile_append_of_pos (by simp), hstop, List.append_nil]

/-- A line is a heading exactly if it has the parts of one. -/
theorem headingOfLine?_eq_some_iff :
    headingOfLine? line = some (level, text) ↔ IsHeading line level text := by
  constructor
  · intro h
    simp only [headingOfLine?] at h
    split at h
    next hrange =>
      obtain ⟨rest, hrest, hpair⟩ := Option.map_eq_some_iff.mp h
      obtain ⟨rfl, htext⟩ := Prod.mk.inj hpair
      obtain ⟨gap, hgap⟩ := afterGap?_eq_some_iff.mp hrest
      obtain ⟨closing, hclosing⟩ := withoutClosingHashes_eq_iff.mp htext
      simp only [Bool.and_eq_true, decide_eq_true_eq] at hrange
      exact ⟨hrange.1, hrange.2, _, gap, rest, closing, eq_hashes_append line, hgap, hclosing⟩
    next => cases h
  · rintro ⟨hone, hsix, behind, gap, rest, closing, rfl, hgap, hclosing⟩
    have hrest : afterGap? behind = some rest := afterGap?_eq_some_iff.mpr ⟨gap, hgap⟩
    have htext : headingText rest = text := withoutClosingHashes_eq_iff.mpr ⟨closing, hclosing⟩
    simp [headingOfLine?, takeWhile_hashes_append hgap.toIsGap, hone, hsix, hrest, htext]

theorem headings_singleton_iff :
    headings [line] = [⟨0, level, text⟩] ↔ headingOfLine? line = some (level, text) := by
  cases h : headingOfLine? line with
  | none => simp [headings, headingsFrom, h]
  | some pair => simp [headings, headingsFrom, h, Prod.ext_iff]

/-- The title of the lines is the first of their headings of level one. -/
theorem findTitleFrom_eq_find? (index : Nat) : findTitleFrom index lines =
    ((headingsFrom index lines).find? (·.level == 1)).map fun head => (head.line, head.text) := by
  induction lines generalizing index with
  | nil => rfl
  | cons line lines ih =>
    cases h : headingOfLine? line with
    | none =>
      have htitle : titleOfLine? line = none :=
        titleOfLine?_eq_none_of_isHeadingLine (isHeadingLine_eq_false_iff.mpr h)
      simp only [findTitleFrom, htitle]
      rw [headingsFrom_cons_of_not_heading h, ih]
    | some pair =>
      obtain ⟨level, text⟩ := pair
      rw [headingsFrom_cons_of_heading h]
      by_cases hlevel : level = 1
      · subst hlevel
        simp [findTitleFrom, titleOfLine?_eq_some_iff.mpr h]
      · -- A deeper heading is no title, whatever its text.
        have htitle : titleOfLine? line = none := by
          refine Option.eq_none_iff_forall_ne_some.mpr fun title htitle => hlevel ?_
          rw [titleOfLine?_eq_some_iff, h] at htitle
          exact (Prod.mk.inj (Option.some.inj htitle)).1
        rw [List.find?_cons_of_neg (by simpa using hlevel)]
        simp only [findTitleFrom, htitle]
        exact ih (index + 1)

/-- The title at or after a line is the first heading of level one that is listed there. -/
theorem findTitle_eq_find? (lines : Buffer) (start : Nat) : findTitle lines start =
    ((headings lines).find? fun head => head.level == 1 && start ≤ head.line).map
      fun head => (head.line, head.text) := by
  have hcut : headings lines =
      headingsFrom 0 (lines.take start) ++
        headingsFrom (lines.take start).length (lines.drop start) := by
    conv_lhs => rw [headings, ← List.take_append_drop start lines, headingsFrom_append]
    rw [Nat.zero_add]
  have habove : (headingsFrom 0 (lines.take start)).find?
      (fun head => head.level == 1 && start ≤ head.line) = none := by
    refine List.find?_eq_none.mpr fun head hmem => ?_
    have hlt := line_lt_of_mem_headingsFrom hmem
    have hle := List.length_take_le start lines
    have hbelow : ¬ start ≤ head.line := by omega
    simp [hbelow]
  rw [hcut, List.find?_append, habove, Option.none_or]
  by_cases hstart : start ≤ lines.length
  · have hlength : (lines.take start).length = start := List.length_take_of_le hstart
    rw [findTitle, findTitleFrom_eq_find?, hlength]
    congr 1
    refine List.find?_congr fun head hmem => ?_
    simp [le_line_of_mem_headingsFrom hmem]
  · -- The buffer ends above the line, so nothing is left to look at.
    have hnone : lines.drop start = [] := List.drop_eq_nil_of_le (by omega)
    simp [findTitle, hnone, findTitleFrom, headingsFrom]

/-- Headings are recognised exactly, and alike by both recognisers. A line is listed with a level
and a text exactly if it has the parts of such a heading, and it is a heading line exactly if it has
them for some level and text. Of any text the longest closing tail is removed. The title at or after
a line is the first heading of level one that is listed there. -/
theorem headings_exact (line : Line) (lines : Buffer) (start : Nat) :
    (∀ level text, headings [line] = [⟨0, level, text⟩] ↔ IsHeading line level text) ∧
    (isHeadingLine line = true ↔ ∃ level text, IsHeading line level text) ∧
    (∀ text kept, withoutClosingHashes text = kept ↔
      ∃ closing, IsLongestClosing text kept closing) ∧
    findTitle lines start =
      ((headings lines).find? fun head => head.level == 1 && start ≤ head.line).map
        fun head => (head.line, head.text) := by
  refine ⟨fun level text => ?_, ?_, fun text kept => withoutClosingHashes_eq_iff,
    findTitle_eq_find? lines start⟩
  · rw [headings_singleton_iff, headingOfLine?_eq_some_iff]
  · simp only [isHeadingLine_iff, headingOfLine?_eq_some_iff]

/-- Of a title made of hashes only the last run goes. -/
example : headings ["## # ##".toList] = [⟨0, 2, "#".toList⟩] := by decide

end Headings

end Waymark
