import Waymark.Proofs.Renewal

/-!
# Sections by index

What is asked of the footers speaks of sections by the indices of their first and last
lines. The passes know sections only by the levels that are open at a line. Both views
agree: a line lies in a section exactly when some open section is not ended by it, and the
sections that end on a line are the open ones that the line below it ends.

## Main definitions

* `sectionSpans`, `sectionsOf` — the sections of the configured levels
* `markSections` — the lines, each with the mark whether it lies in a section
* `closingAbove` — how many open sections end above some lines

## Main results

* `exists_mem_sectionsOf` — every heading of a configured level opens a section
* `without_sectionsOf`, `countP_sectionsOf` — the lines in sections and outside, by their marks
* `countP_last_sectionsOf` — how many sections end on a line
-/

namespace Waymark

/-- The sections that the headings open at one of the levels, each without its heading line. -/
def sectionSpans (levels : List Nat) (lineCount : Nat) : List Heading → List Span
  | [] => []
  | head :: later =>
    if levels.contains head.level then
      ⟨head.line + 1, sectionEnd head.level later lineCount⟩ ::
        sectionSpans levels lineCount later
    else sectionSpans levels lineCount later

/-- The sections of a buffer at one of the levels, each without its heading line. -/
def sectionsOf (levels : List Nat) (lines : Buffer) : List Span :=
  sectionSpans levels lines.length (headings lines)

/-- The lines, each with the mark whether it lies in a section of a configured level. The outermost
section that is open around the lines has the level `cover`. -/
def markSections (levels : List Nat) (cover : Option Nat) : List Line → List (Line × Bool)
  | [] => []
  | line :: rest =>
    (line, cover.any (!endsSection · line)) ::
      markSections levels (nextCover levels cover line) rest

/-- How many of the open sections end right above the lines: all where no line is left, else those
that the first line ends. -/
def closingAbove (opened : List Nat) : List Line → Nat
  | [] => opened.length
  | line :: _ => closingCount opened line

variable {levels opened : List Nat} {line : Line} {cover : Option Nat} {lines front back : Buffer}
variable {heads : List Heading} {head : Heading} {count index position level : Nat}

/-! ### Sections and headings -/

theorem sectionSpans_cons_of_mem (h : levels.contains head.level = true) :
    sectionSpans levels count (head :: heads) =
      ⟨head.line + 1, sectionEnd head.level heads count⟩ :: sectionSpans levels count heads :=
  if_pos h

theorem sectionSpans_cons_of_not_mem (h : levels.contains head.level = false) :
    sectionSpans levels count (head :: heads) = sectionSpans levels count heads :=
  if_neg (Bool.eq_false_iff.mp h)

/-- Every heading of a configured level opens a section, which starts below it. -/
theorem exists_mem_sectionSpans (h : heads[position]? = some head)
    (hlevel : levels.contains head.level = true) :
    ∃ last, sectionEndAt? heads position count = some last ∧
      ⟨head.line + 1, last⟩ ∈ sectionSpans levels count heads := by
  induction heads generalizing position with
  | nil => cases h
  | cons first heads ih =>
    cases position with
    | zero =>
      obtain rfl := Option.some.inj h
      rw [sectionSpans_cons_of_mem hlevel]
      exact ⟨_, rfl, List.mem_cons_self⟩
    | succ position =>
      obtain ⟨last, hlast, hmem⟩ := ih h
      refine ⟨last, hlast, ?_⟩
      cases hfirst : levels.contains first.level with
      | true =>
        rw [sectionSpans_cons_of_mem hfirst]
        exact List.mem_cons_of_mem _ hmem
      | false => rwa [sectionSpans_cons_of_not_mem hfirst]

/-! ### Lines in sections -/

/-- The ends around a line are those of the sections that the line lies in. -/
theorem mem_sectionEndsAround_iff {last : Nat} :
    last ∈ sectionEndsAround levels count index heads ↔
      ∃ around ∈ sectionSpans levels count heads,
        around.contains index = true ∧ around.last = last := by
  induction heads with
  | nil => simp [sectionEndsAround, sectionSpans]
  | cons head heads ih =>
    rw [sectionEndsAround]
    cases hlevel : levels.contains head.level with
    | false =>
      rw [sectionSpans_cons_of_not_mem hlevel, ← ih]
      rfl
    | true =>
      rw [sectionSpans_cons_of_mem hlevel, List.exists_mem_cons_iff, ← ih, Span.contains_iff,
        Nat.add_one_le_iff]
      by_cases hin : head.line < index ∧ index ≤ sectionEnd head.level heads count
      · simp [hin, eq_comm]
      · simp [hin]

theorem coversLine_sectionSpans (levels : List Nat) (count index : Nat) (heads : List Heading) :
    coversLine (sectionSpans levels count heads) index =
      !(sectionEndsAround levels count index heads).isEmpty := by
  rw [Bool.eq_iff_iff, coversLine, List.any_eq_true, Bool.not_eq_true',
    List.isEmpty_eq_false_iff_exists_mem]
  simp only [mem_sectionEndsAround_iff]
  constructor
  · rintro ⟨around, hmem, hin⟩
    exact ⟨around.last, around, hmem, hin, rfl⟩
  · rintro ⟨_, around, hmem, hin, -⟩
    exact ⟨around, hmem, hin⟩

/-- A line lies in one of the open sections exactly when it lies in the outermost one. -/
theorem any_opened (h : opened.Pairwise (· < ·)) (line : Line) :
    opened.any (!endsSection · line) = opened.head?.any (!endsSection · line) := by
  cases opened with
  | nil => rfl
  | cons outer opened =>
    rw [List.any_cons, List.head?_cons, Option.any_some, Bool.or_eq_left_iff_imp]
    intro hinner
    obtain ⟨inner, hmem, hinner⟩ := List.any_eq_true.mp hinner
    have hlt := List.rel_of_pairwise_cons h hmem
    cases hline : headingOfLine? line with
    | none => simp [endsSection_eq_false (isHeadingLine_eq_false_iff.mpr hline)]
    | some pair =>
      simp only [endsSection_of_headingOfLine? hline, Bool.not_eq_true',
        decide_eq_false_iff_not] at hinner ⊢
      omega

theorem coversLine_sectionsOf (levels : List Nat) (front : Buffer) (line : Line) (rest : Buffer) :
    coversLine (sectionsOf levels (front ++ line :: rest)) front.length =
      (coverAfter levels none front).any (!endsSection · line) := by
  have hends := sectionEndsAround_append levels 0 front line rest
  have hopen := openAfter_eq levels [] front
  have hcover : (openAfter levels [] front).head? = coverAfter levels [].head? front :=
    head?_openAfter List.Pairwise.nil front
  have hany : (openAfter levels [] front).any (!endsSection · line) =
      (openAfter levels [] front).head?.any (!endsSection · line) :=
    any_opened (pairwise_openAfter List.Pairwise.nil front) line
  rw [List.filter_nil, List.nil_append] at hopen
  rw [Nat.zero_add, Nat.zero_add] at hends
  rw [List.head?_nil] at hcover
  rw [hcover, hopen] at hany
  rw [← hany, sectionsOf, coversLine_sectionSpans, headings, hends, List.isEmpty_map]
  rw [Bool.eq_iff_iff]
  simp

/-- Looked up by index, the marks are those of the pass. -/
theorem map_coversLine_sectionsOf (levels : List Nat) (front rest : Buffer) :
    (rest.zipIdx front.length).map (fun pair =>
        (pair.1, coversLine (sectionsOf levels (front ++ rest)) pair.2)) =
      markSections levels (coverAfter levels none front) rest := by
  induction rest generalizing front with
  | nil => rfl
  | cons line rest ih =>
    have hrest := ih (front ++ [line])
    rw [List.length_append, List.length_singleton, List.append_assoc, List.singleton_append,
      coverAfter_append] at hrest
    rw [List.zipIdx_cons, List.map_cons, hrest, coversLine_sectionsOf]
    rfl

theorem without_sectionsOf (levels : List Nat) (lines : Buffer) :
    lines.without (sectionsOf levels lines) =
      ((markSections levels none lines).filter (!·.2)).map (·.1) := by
  have hmarks := map_coversLine_sectionsOf levels [] lines
  rw [List.nil_append, List.length_nil] at hmarks
  have hcover : coverAfter levels none [] = none := rfl
  rw [← hcover, ← hmarks, List.filter_map, List.map_map]
  rfl

/-- Lines in sections are counted by their marks. -/
theorem countP_sectionsOf (levels : List Nat) (lines : Buffer) (test : Line → Bool) :
    lines.zipIdx.countP (fun pair => test pair.1 && coversLine (sectionsOf levels lines) pair.2) =
      (markSections levels none lines).countP fun pair => test pair.1 && pair.2 := by
  have hmarks := map_coversLine_sectionsOf levels [] lines
  rw [List.nil_append, List.length_nil] at hmarks
  have hcover : coverAfter levels none [] = none := rfl
  rw [← hcover, ← hmarks, List.countP_map]
  rfl

/-! ### Where sections end -/

/-- A section ends with some lines exactly when none of them ends it and what follows does. -/
theorem length_sectionPart_eq_iff :
    (sectionPart level (front ++ back)).length = front.length ↔
      front.any (endsSection level) = false ∧ closingAbove [level] back = 1 := by
  cases hany : front.any (endsSection level) with
  | true =>
    have := length_sectionPart_lt level front back hany
    simp only [Bool.true_eq_false, false_and, iff_false]
    omega
  | false =>
    rw [sectionPart_append level front back hany, List.length_append]
    cases back with
    | nil => simp [sectionPart, closingAbove]
    | cons line back =>
      cases hends : endsSection level line with
      | true => simp [sectionPart_cons_of_ends hends, closingAbove, closingCount, hends]
      | false => simp [sectionPart_cons_of_stays hends, closingAbove, closingCount, hends]

theorem closingAbove_cons (level : Nat) (opened : List Nat) (lines : Buffer) :
    closingAbove (level :: opened) lines =
      closingAbove [level] lines + closingAbove opened lines := by
  cases lines with
  | nil => exact Nat.add_comm _ _
  | cons line lines =>
    rw [closingAbove, closingAbove, closingAbove, closingCount, closingCount, closingCount,
      ← List.singleton_append, List.countP_append]

theorem closingAbove_singleton_le (level : Nat) (lines : Buffer) :
    closingAbove [level] lines ≤ 1 := by
  cases lines with
  | nil => exact Nat.le_refl _
  | cons line lines => exact List.countP_le_length

/-- A section lies in its buffer. One that is empty ends with its heading line. -/
theorem bounds_of_mem_sectionSpans {start : Nat} {span : Span}
    (h : span ∈ sectionSpans levels (start + lines.length) (headingsFrom start lines)) :
    start < span.first ∧ span.first ≤ span.last + 1 ∧ span.last < start + lines.length := by
  induction lines generalizing start with
  | nil => cases h
  | cons line lines ih =>
    rw [add_length_cons] at h ⊢
    -- The bounds of a section further down are met from here as well.
    have hlater (hspan : span ∈ sectionSpans levels (start + 1 + lines.length)
        (headingsFrom (start + 1) lines)) : start < span.first ∧ span.first ≤ span.last + 1 ∧
          span.last < start + 1 + lines.length := by
      have := ih hspan
      omega
    cases hline : headingOfLine? line with
    | none =>
      rw [headingsFrom_cons_of_not_heading hline] at h
      exact hlater h
    | some pair =>
      rw [headingsFrom_cons_of_heading hline, sectionSpans] at h
      have hend := sectionEnd_headingsFrom pair.1 start lines
      have hle := sectionLength_le pair.1 lines
      split at h
      · rcases List.mem_cons.mp h with rfl | h
        · dsimp only
          omega
        · exact hlater h
      · exact hlater h

/-- The sections that end right above some lines are the ones that the lines above open and do not
end, and that what follows ends. -/
theorem countP_last_sectionSpans (levels : List Nat) (start : Nat) (front back : Buffer) :
    (sectionSpans levels (start + (front ++ back).length)
        (headingsFrom start (front ++ back))).countP (·.last + 1 == start + front.length) =
      closingAbove (pendingLevels levels front) back := by
  induction front generalizing start with
  | nil =>
    have hnone : closingAbove [] back = 0 := by cases back <;> rfl
    rw [pendingLevels, hnone, List.countP_eq_zero]
    intro span hspan
    have := bounds_of_mem_sectionSpans hspan
    rw [List.length_nil, Nat.add_zero, beq_iff_eq]
    omega
  | cons first front ih =>
    rw [List.cons_append, add_length_cons, add_length_cons, pendingLevels]
    cases hfirst : headingOfLine? first with
    | none => rw [headingsFrom_cons_of_not_heading hfirst, ih]
    | some pair =>
      obtain ⟨level, text⟩ := pair
      rw [headingsFrom_cons_of_heading hfirst]
      cases hlevel : levels.contains level with
      | false =>
        dsimp only
        rw [sectionSpans_cons_of_not_mem hlevel, ih, hlevel]
        rfl
      | true =>
        dsimp only
        rw [sectionSpans_cons_of_mem hlevel, List.countP_cons, ih, hlevel]
        have hend : sectionEnd level (headingsFrom (start + 1) (front ++ back))
            (start + 1 + (front ++ back).length) =
              start + (sectionPart level (front ++ back)).length :=
          sectionEnd_headingsFrom level start (front ++ back)
        -- Whether the section of this heading ends right above the lines that follow.
        have hhere : (sectionEnd level (headingsFrom (start + 1) (front ++ back))
            (start + 1 + (front ++ back).length) + 1 == start + 1 + front.length) =
              decide (front.any (endsSection level) = false ∧ closingAbove [level] back = 1) := by
          rw [hend, Bool.eq_iff_iff, beq_iff_eq, decide_eq_true_eq, ← length_sectionPart_eq_iff]
          omega
        rw [hhere]
        cases front.any (endsSection level) with
        | true => simp
        | false =>
          have hle := closingAbove_singleton_le level back
          simp only [true_and, decide_eq_true_eq, Bool.not_false, Bool.and_true, if_true]
          rw [closingAbove_cons level (pendingLevels levels front)]
          split <;> omega

/-- How many sections end on the last one of some lines. -/
theorem countP_last_sectionsOf (levels : List Nat) (front back : Buffer) :
    (sectionsOf levels (front ++ back)).countP (·.last + 1 == front.length) =
      closingAbove (openAfter levels [] front) back := by
  have hcount := countP_last_sectionSpans levels 0 front back
  have hopen := openAfter_eq levels [] front
  rw [List.filter_nil, List.nil_append] at hopen
  rw [Nat.zero_add, Nat.zero_add] at hcount
  rw [hopen, ← hcount]
  rfl

theorem bounds_of_mem_sectionsOf {span : Span} (h : span ∈ sectionsOf levels lines) :
    0 < span.first ∧ span.first ≤ span.last + 1 ∧ span.last < lines.length := by
  have hcount : lines.length = 0 + lines.length := (Nat.zero_add _).symm
  rw [sectionsOf, headings, hcount] at h
  have := bounds_of_mem_sectionSpans h
  omega

end Waymark
