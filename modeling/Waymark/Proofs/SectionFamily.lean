import Waymark.Proofs.Outline

/-!
# How sections lie in one another

A section goes on below its heading for as long as the headings on the way are deeper. How sections
lie follows from this rule alone, and not from the way in which their ends are found. A heading that
reaches down to a later one is less deep, and so it reaches every line that the later one reaches. A
section that comes down to the heading of another one therefore holds all of it: two sections are
nested or apart, whatever levels are skipped and wherever the headings stand.

Of the headings nothing is used but that they stand on ascending lines of the note.

## Main definitions

* `StandInOrder` — headings on ascending lines of a note
* `Heading.Reaches` — the section of a heading goes on to a line
* `IsLaminar` — of any two sections the later one is inside the earlier one or below it

## Main results

* `StandInOrder.le_last_iff` — a section ends on the last line that its heading reaches
* `Heading.Reaches.trans` — what a heading reaches is reached from all headings that reach it
* `StandInOrder.isLaminar` — sections of headings in their order are nested or apart
* `isLaminar_headings` — so are the sections of every buffer
-/

namespace Waymark

/-- The headings stand on ascending lines of a note that has so many lines. -/
structure StandInOrder (heads : List Heading) (lineCount : Nat) : Prop where
  /-- A later heading stands further down. -/
  ascending : heads.Pairwise fun head later => head.line < later.line
  /-- Every heading stands in the note. -/
  inside : ∀ head ∈ heads, head.line < lineCount

/-- The note goes on to line `index`, and all headings below `head` down to that line are deeper. -/
def Heading.Reaches (head : Heading) (heads : List Heading) (lineCount index : Nat) : Prop :=
  index < lineCount ∧
    ∀ later ∈ heads, head.line < later.line → later.line ≤ index → head.level < later.level

/-- The sections that the headings open in a note of so many lines form a laminar family: none of
them overlaps another one in part. -/
structure IsLaminar (heads : List Heading) (lineCount : Nat) : Prop where
  /-- Every section has a last line, which is not above the heading and lies in the note. -/
  bounded : ∀ position head, heads[position]? = some head →
    ∃ last, sectionEndAt? heads position lineCount = some last ∧
      head.line ≤ last ∧ last < lineCount
  /-- It is the last line that the heading reaches. -/
  reached : ∀ position head last, heads[position]? = some head →
    sectionEndAt? heads position lineCount = some last →
      ∀ index, index ≤ last ↔ head.Reaches heads lineCount index
  /-- An earlier section ends above the heading of a later one, or the later heading is deeper and
  its section ends in the earlier one. -/
  nested : ∀ i j, i < j → ∀ outer inner outerLast innerLast,
    heads[i]? = some outer → heads[j]? = some inner →
      sectionEndAt? heads i lineCount = some outerLast →
        sectionEndAt? heads j lineCount = some innerLast →
          outerLast < inner.line ∨ (outer.level < inner.level ∧ innerLast ≤ outerLast)

variable {heads later : List Heading} {head outer inner other : Heading} {lines : Buffer}
variable {count index level position last start : Nat}

/-! ### What a heading reaches -/

namespace Heading.Reaches

/-- A heading in the note reaches its own line. -/
theorem self (h : head.line < count) : head.Reaches heads count head.line :=
  ⟨h, fun _ _ hbelow habove => absurd habove (Nat.not_le_of_lt hbelow)⟩

/-- A heading that reaches a later one is less deep. -/
theorem level_lt (h : outer.Reaches heads count inner.line) (hmem : inner ∈ heads)
    (hbelow : outer.line < inner.line) : outer.level < inner.level :=
  h.2 inner hmem hbelow (Nat.le_refl _)

/-- A heading that reaches a later one reaches every line that the later one reaches. -/
theorem trans (h : outer.Reaches heads count inner.line) (hmem : inner ∈ heads)
    (hbelow : outer.line < inner.line) (hinner : inner.Reaches heads count index) :
    outer.Reaches heads count index := by
  refine ⟨hinner.1, fun later hlater hout hle => ?_⟩
  -- Down to the later heading the earlier one passes all others, and below it the later one does.
  by_cases hlow : inner.line < later.line
  · exact Nat.lt_trans (h.level_lt hmem hbelow) (hinner.2 later hlater hlow hle)
  · exact h.2 later hlater hout (Nat.le_of_not_lt hlow)

end Heading.Reaches

/-! ### The last line of a section -/

namespace StandInOrder

theorem tail (h : StandInOrder (head :: heads) count) : StandInOrder heads count :=
  ⟨h.ascending.of_cons, fun later hmem => h.inside later (List.mem_cons_of_mem _ hmem)⟩

theorem drop (h : StandInOrder heads count) (position : Nat) :
    StandInOrder (heads.drop position) count :=
  ⟨h.ascending.sublist (List.drop_sublist _ _),
    fun head hmem => h.inside head (List.mem_of_mem_drop hmem)⟩

/-- The headings behind a position are the ones that stand below it. -/
theorem mem_drop_iff (h : StandInOrder heads count) (hhead : heads[position]? = some head) :
    other ∈ heads.drop (position + 1) ↔ other ∈ heads ∧ head.line < other.line := by
  induction heads generalizing position with
  | nil => cases hhead
  | cons first heads ih =>
    have hfirst := (List.pairwise_cons.mp h.ascending).1
    rw [List.drop_succ_cons, List.mem_cons]
    cases position with
    | zero =>
      obtain rfl := Option.some.inj hhead
      rw [List.drop_zero]
      constructor
      · exact fun hmem => ⟨Or.inr hmem, hfirst other hmem⟩
      · rintro ⟨rfl | hmem, hbelow⟩
        · exact absurd hbelow (Nat.lt_irrefl _)
        · exact hmem
    | succ position =>
      -- The first heading stands above the one at the position, so it is none of those below.
      rw [List.getElem?_cons_succ] at hhead
      have habove := hfirst head (List.mem_of_getElem? hhead)
      rw [ih h.tail hhead]
      constructor
      · exact fun ⟨hmem, hbelow⟩ => ⟨Or.inr hmem, hbelow⟩
      · rintro ⟨rfl | hmem, hbelow⟩
        · exact absurd hbelow (Nat.lt_asymm habove)
        · exact ⟨hmem, hbelow⟩

/-- Read off the headings behind it, a section goes on to a line of the note if all of them that
stand there or above are deeper. -/
theorem le_sectionEnd_iff (h : StandInOrder later count) (hcount : 0 < count)
    (hbelow : ∀ other ∈ later, 0 < other.line) :
    index ≤ sectionEnd level later count ↔
      index < count ∧ ∀ other ∈ later, other.line ≤ index → level < other.level := by
  induction later with
  | nil => simp [sectionEnd, Nat.le_sub_one_iff_lt hcount]
  | cons next later ih =>
    by_cases hdeeper : level < next.level
    · -- The section goes on over the next heading.
      have hend : sectionEnd level (next :: later) count = sectionEnd level later count := by
        rw [sectionEnd, sectionEnd, List.find?_cons_of_neg (by simpa using hdeeper)]
      have hlater := ih h.tail fun other hmem => hbelow other (List.mem_cons_of_mem _ hmem)
      rw [hend, hlater, List.forall_mem_cons]
      simp [hdeeper]
    · have hend : sectionEnd level (next :: later) count = next.line - 1 := by
        rw [sectionEnd, List.find?_cons_of_pos (by simpa using hdeeper)]
      have hfirst := (List.pairwise_cons.mp h.ascending).1
      have hnext := hbelow next List.mem_cons_self
      rw [hend, Nat.le_sub_one_iff_lt hnext]
      constructor
      · intro hindex
        refine ⟨Nat.lt_trans hindex (h.inside next List.mem_cons_self), fun other hmem hle => ?_⟩
        rcases List.mem_cons.mp hmem with rfl | hmem
        · exact absurd hle (Nat.not_le_of_lt hindex)
        · exact absurd hle (Nat.not_le_of_lt (Nat.lt_trans hindex (hfirst other hmem)))
      · rintro ⟨-, hall⟩
        by_contra hnot
        exact hdeeper (hall next List.mem_cons_self (Nat.le_of_not_lt hnot))

/-- A section ends on the last line that its heading reaches. -/
theorem le_last_iff (h : StandInOrder heads count) (hhead : heads[position]? = some head)
    (hlast : sectionEndAt? heads position count = some last) :
    index ≤ last ↔ head.Reaches heads count index := by
  rw [sectionEndAt?, hhead, Option.map_some] at hlast
  obtain rfl := Option.some.inj hlast
  have hbelow : ∀ other ∈ heads.drop (position + 1), 0 < other.line := fun other hmem =>
    Nat.zero_lt_of_lt ((h.mem_drop_iff hhead).mp hmem).2
  have hcount := Nat.zero_lt_of_lt (h.inside head (List.mem_of_getElem? hhead))
  rw [(h.drop _).le_sectionEnd_iff hcount hbelow, Heading.Reaches]
  simp only [h.mem_drop_iff hhead, and_imp]

/-! ### Nested or apart -/

theorem line_lt (h : StandInOrder heads count) {i j : Nat} (hij : i < j)
    (houter : heads[i]? = some outer) (hinner : heads[j]? = some inner) :
    outer.line < inner.line := by
  have hmem : inner ∈ heads.drop (i + 1) := by
    refine List.mem_of_getElem? (i := j - (i + 1)) ?_
    rw [List.getElem?_drop, Nat.add_sub_of_le hij, hinner]
  exact ((h.mem_drop_iff houter).mp hmem).2

/-- Sections of headings that stand in their order are nested or apart. -/
theorem isLaminar (h : StandInOrder heads count) : IsLaminar heads count where
  bounded position head hhead := by
    have hlast : sectionEndAt? heads position count =
        some (sectionEnd head.level (heads.drop (position + 1)) count) := by
      rw [sectionEndAt?, hhead, Option.map_some]
    have hin := h.inside head (List.mem_of_getElem? hhead)
    exact ⟨_, hlast, (h.le_last_iff hhead hlast).mpr (.self hin),
      ((h.le_last_iff hhead hlast).mp (Nat.le_refl _)).1⟩
  reached position head last hhead hlast index := h.le_last_iff hhead hlast
  nested i j hij outer inner outerLast innerLast houter hinner houterLast hinnerLast := by
    have hmem := List.mem_of_getElem? hinner
    have hbelow := h.line_lt hij houter hinner
    by_cases hapart : outerLast < inner.line
    · exact Or.inl hapart
    · -- The earlier section comes down to the later heading, so it holds the whole section below.
      have hreach := (h.le_last_iff houter houterLast).mp (Nat.le_of_not_lt hapart)
      have hinnerReach := (h.le_last_iff hinner hinnerLast).mp (Nat.le_refl _)
      exact Or.inr ⟨hreach.level_lt hmem hbelow,
        (h.le_last_iff houter houterLast).mpr (hreach.trans hmem hbelow hinnerReach)⟩

end StandInOrder

theorem standInOrder_headingsFrom (start : Nat) (lines : Buffer) :
    StandInOrder (headingsFrom start lines) (start + lines.length) := by
  refine ⟨?_, fun head => line_lt_of_mem_headingsFrom⟩
  induction lines generalizing start with
  | nil => exact List.Pairwise.nil
  | cons line lines ih =>
    cases hline : headingOfLine? line with
    | none =>
      rw [headingsFrom_cons_of_not_heading hline]
      exact ih (start + 1)
    | some pair =>
      rw [headingsFrom_cons_of_heading hline]
      exact List.pairwise_cons.mpr ⟨fun later => le_line_of_mem_headingsFrom, ih (start + 1)⟩

/-- The sections of every buffer form a laminar family. Each has a last line, which is the last one
that its heading reaches and lies between the heading and the end of the buffer. Of two sections the
later one stands below the earlier one, or its heading is deeper and it ends in the earlier one. -/
theorem isLaminar_headings (lines : Buffer) : IsLaminar (headings lines) lines.length := by
  have hordered := standInOrder_headingsFrom 0 lines
  rw [Nat.zero_add] at hordered
  exact hordered.isLaminar

/-- A heading above the title, a skipped level, and two sections that end on one line. -/
def skippedLevels : Buffer :=
  ["### Aside".toList, "# T".toList, "#### A".toList, "##### B".toList, "b".toList, "## C".toList]

theorem isLaminar_headings_skippedLevels :
    sectionEndAt? (headings skippedLevels) 1 6 = some 5 ∧
      sectionEndAt? (headings skippedLevels) 2 6 = some 4 ∧ (5 < 2 ∨ (1 < 4 ∧ 4 ≤ 5)) := by
  have houter : sectionEndAt? (headings skippedLevels) 1 6 = some 5 := by decide
  have hinner : sectionEndAt? (headings skippedLevels) 2 6 = some 4 := by decide
  have hnested := (isLaminar_headings skippedLevels).nested 1 2 (by decide)
    ⟨1, 1, "T".toList⟩ ⟨2, 4, "A".toList⟩ 5 4 (by decide) (by decide) houter hinner
  exact ⟨houter, hinner, hnested⟩

end Waymark
