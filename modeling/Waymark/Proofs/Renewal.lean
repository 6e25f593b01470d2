import Waymark.Proofs.Units

/-!
# Renewing the footers

Taking out the old footers and putting in new ones is one pass that carries the open
sections along. A level-one heading ends every section, so what stands above it and what
stands below it are renewed apart. Done a second time, the pass takes out what it put in,
but for the empty line above a footer, and puts the same footers back.

## Main definitions

* `renewFooters` — the stage of the footers within given open sections
* `baseOpened` — the open sections behind a title
* `NoOldFooter` — no footer stands inside a section of a configured level
* `padSections` — an empty line at the end of each section that does not end blank
* `ReadsBack` — how the lines of new footers are read in a later pass
* `scatteredFooters` — a buffer with old footers of every kind

## Main results

* `ensureFooters_eq` — the stage is such a pass
* `renewFooters_append_title` — a title cuts the work in two
* `ReadsBack.keptLines_placeFooters` — what is taken out again of new footers
* `renewFooters_renewFooters` — renewing twice is renewing once
* `ensureFooters_ensureFooters` — the stage settles the footers of every buffer
-/

namespace Waymark

/-- The lines with their footers renewed, where the given sections are open around them. -/
def renewFooters (levels : List Nat) (rule : Line) (opened : List Nat) (endsBlank : Bool)
    (lines : Buffer) : Buffer :=
  placeFooters levels rule opened endsBlank (keptLines levels rule opened.head? 0 lines)

/-- The open sections of a configured level behind a title. -/
def baseOpened (levels : List Nat) : List Nat :=
  if levels.contains 1 then [1] else []

/-- No footer line stands inside a section of a configured level, the outermost section open
around the lines being of level `cover`. -/
def NoOldFooter (levels : List Nat) (cover : Option Nat) : List Line → Prop
  | [] => True
  | line :: rest =>
    (cover = none ∨ isFooterLine line = false) ∧
      NoOldFooter levels (nextCover levels cover line) rest

/-- The empty line that goes above the footers of `count` sections, unless they end blank. -/
def gapAbove (count : Nat) (endsBlank : Bool) : List Line :=
  if count = 0 || endsBlank then [] else [[]]

/-- The lines with an empty line at the end of each section of a configured level that does not
end blank. -/
def padSections (levels : List Nat) (opened : List Nat) (endsBlank : Bool) : List Line → List Line
  | [] => gapAbove opened.length endsBlank
  | line :: rest =>
    gapAbove (closingCount opened line) endsBlank ++
      line :: padSections levels (nextOpened levels opened line) (isBlank line) rest

variable {levels opened : List Nat} {rule line title : Line} {level : Nat} {cover : Option Nat}
variable {lines front back rest : Buffer} {inside : Nat} {endsBlank : Bool}

/-! ### The stage -/

theorem isHeadingLine_ruleLine (rule : Line) : isHeadingLine (ruleLine rule) = false := by
  rw [ruleLine]
  split
  · decide
  · next h =>
    simp only [Bool.or_eq_true, not_or, Bool.not_eq_true] at h
    exact h.2

theorem placeFooters_nil_opened (levels : List Nat) (rule : Line) (endsBlank other : Bool)
    (lines : Buffer) :
    placeFooters levels rule [] endsBlank lines = placeFooters levels rule [] other lines := by
  cases lines <;> rfl

/-- The stage renews the footers from the first line to the last. -/
theorem ensureFooters_eq (lines : Buffer) (levels : List Nat) (rule : List Char)
    (endsBlank : Bool) :
    ensureFooters lines levels rule = renewFooters levels (ruleLine rule) [] endsBlank lines := by
  rw [ensureFooters, insertFooters_eq_placeFooters (isHeadingLine_ruleLine rule) endsBlank,
    without_footerSpans]
  rfl

theorem keptLines_sublist (levels : List Nat) (rule : Line) (cover : Option Nat) (inside : Nat)
    (lines : Buffer) : (keptLines levels rule cover inside lines).Sublist lines := by
  induction lines generalizing cover inside with
  | nil => exact List.Sublist.refl _
  | cons line lines ih =>
    cases inside with
    | succ inside => exact (ih _ _).cons line
    | zero =>
      rcases kept_or_footer cover line with hkept | ⟨level, rfl, hfooter⟩
      · rw [keptLines_cons_of_kept hkept]
        exact (ih _ _).cons_cons line
      · rw [keptLines_cons_of_footer hfooter]
        exact (ih _ _).cons line

theorem mem_placeFooters {found : Line}
    (h : found ∈ placeFooters levels rule opened endsBlank lines) :
    found ∈ lines ∨ found = [] ∨ found = backToTop ∨ found = rule := by
  induction lines generalizing opened endsBlank with
  | nil => exact Or.inr (mem_footerStack h)
  | cons line lines ih =>
    rcases List.mem_append.mp h with h | h
    · exact Or.inr (mem_footerStack h)
    · rcases List.mem_cons.mp h with rfl | h
      · exact Or.inl List.mem_cons_self
      · exact (ih h).imp_left (List.mem_cons_of_mem _)

/-- Every line of the buffer was there before or belongs to a new footer. -/
theorem mem_renewFooters {found : Line}
    (h : found ∈ renewFooters levels rule opened endsBlank lines) :
    found ∈ lines ∨ found = [] ∨ found = backToTop ∨ found = rule :=
  (mem_placeFooters h).imp_left fun hkept => (keptLines_sublist _ _ _ _ _).subset hkept

/-- What holds of all lines and of those of a footer still holds when the footers are renewed. -/
theorem forall_mem_renewFooters {p : Line → Prop} (hempty : p []) (hlink : p backToTop)
    (hrule : p rule) (h : ∀ line ∈ lines, p line) :
    ∀ line ∈ renewFooters levels rule opened endsBlank lines, p line := by
  intro line hline
  rcases mem_renewFooters hline with hline | rfl | rfl | rfl
  · exact h line hline
  · exact hempty
  · exact hlink
  · exact hrule

/-! ### Cutting the work in two -/

theorem unitReach_le_length (rule : Line) (ruled : Bool) (lines : Buffer) :
    unitReach rule ruled lines ≤ lines.length := by
  induction lines generalizing ruled with
  | nil => exact Nat.le_refl _
  | cons line lines ih =>
    have hopen := ih ruled
    have hruled := ih true
    have hnew := ih false
    rw [unitReach, List.length_cons]
    split
    · split <;> omega
    · split
      · omega
      · split <;> omega

theorem sectionPart_append_heading {text : List Char} {found : Nat}
    (htitle : headingOfLine? title = some (found, text)) (hle : found ≤ level)
    (front back : Buffer) :
    sectionPart level (front ++ title :: back) = sectionPart level front := by
  have hends : endsSection level title = true := by
    rw [endsSection_of_headingOfLine? htitle, decide_eq_true_eq]
    exact hle
  rw [sectionPart, List.takeWhile_append]
  split
  · next h =>
    rw [List.takeWhile_cons_of_neg (by simp [hends]), List.append_nil]
    exact ((List.takeWhile_prefix _).eq_of_length h).symm
  · rfl

theorem one_le_nextCover (h : ∀ level ∈ cover, 1 ≤ level) (line : Line) :
    ∀ level ∈ nextCover levels cover line, 1 ≤ level := by
  intro level hlevel
  cases hline : headingOfLine? line with
  | none =>
    rw [nextCover_of_not_heading (isHeadingLine_eq_false_iff.mpr hline)] at hlevel
    exact h level hlevel
  | some pair =>
    rw [nextCover_of_heading hline, Option.mem_def, Option.or_eq_some_iff] at hlevel
    rcases hlevel with hlevel | ⟨-, hlevel⟩
    · exact h level (Option.filter_eq_some_iff.mp hlevel).1
    · rw [Option.ite_none_right_eq_some, Option.some.injEq] at hlevel
      rw [← hlevel.2]
      exact one_le_level hline

/-- A title ends every section, so no footer above it reaches past it. -/
theorem keptLines_append_title {text : List Char} (htitle : headingOfLine? title = some (1, text))
    (hcover : ∀ level ∈ cover, 1 ≤ level) (hinside : inside ≤ front.length) :
    keptLines levels rule cover inside (front ++ title :: back) =
      keptLines levels rule cover inside front ++
        title :: keptLines levels rule (baseOpened levels).head? 0 back := by
  have hheading : isHeadingLine title = true := isHeadingLine_iff.mpr ⟨_, _, htitle⟩
  induction front generalizing cover inside with
  | nil =>
    obtain rfl : inside = 0 := Nat.le_zero.mp hinside
    -- A title is of the lowest level, so it ends all sections from above.
    have hnone : cover.filter (· < 1) = none := by
      rw [Option.filter_eq_none_iff]
      intro level hlevel
      have := hcover level hlevel
      simp only [decide_eq_true_eq]
      omega
    have hbase : nextCover levels cover title = (baseOpened levels).head? := by
      rw [nextCover_of_heading htitle, hnone, Option.none_or, baseOpened]
      split <;> rfl
    rw [List.nil_append, keptLines_cons_of_kept
      (Or.inr (isFooterLine_eq_false_of_isHeadingLine hheading)), hbase]
    rfl
  | cons line front ih =>
    cases inside with
    | succ inside =>
      exact ih (one_le_nextCover hcover line) (Nat.le_of_succ_le_succ hinside)
    | zero =>
      rw [List.cons_append]
      rcases kept_or_footer cover line with hkept | ⟨level, rfl, hfooter⟩
      · rw [keptLines_cons_of_kept hkept, keptLines_cons_of_kept hkept,
          ih (one_le_nextCover hcover line) (Nat.zero_le _), List.cons_append]
      · -- The footer reaches no further than its section, which the title ends.
        have hlevel : 1 ≤ level := hcover level rfl
        rw [keptLines_cons_of_footer hfooter, keptLines_cons_of_footer hfooter,
          sectionPart_append_heading htitle hlevel]
        refine ih hcover (Nat.le_trans (unitReach_le_length _ _ _) ?_)
        exact (List.takeWhile_sublist _).length_le

theorem one_le_nextOpened (h : ∀ level ∈ opened, 1 ≤ level) (line : Line) :
    ∀ level ∈ nextOpened levels opened line, 1 ≤ level := by
  intro level hlevel
  rcases mem_nextOpened_iff.mp hlevel with ⟨hopen, -⟩ | ⟨-, text, hline⟩
  · exact h level hopen
  · exact one_le_level hline

/-- A title ends every section, so the footers above it are those of the buffer above it. -/
theorem placeFooters_append_title {text : List Char}
    (htitle : headingOfLine? title = some (1, text))
    (hopened : ∀ level ∈ opened, 1 ≤ level) :
    placeFooters levels rule opened endsBlank (front ++ title :: back) =
      placeFooters levels rule opened endsBlank front ++
        title :: placeFooters levels rule (baseOpened levels) false back := by
  induction front generalizing opened endsBlank with
  | nil =>
    -- A title ends all open sections, and each of them leaves its footer above it.
    have hall : closingCount opened title = opened.length := by
      rw [closingCount, List.countP_eq_length]
      intro level hlevel
      rw [endsSection_of_headingOfLine? htitle, decide_eq_true_eq]
      exact hopened level hlevel
    have hnone : opened.filter (· < 1) = [] := by
      rw [List.filter_eq_nil_iff]
      intro level hlevel
      have := hopened level hlevel
      simp only [decide_eq_true_eq]
      omega
    have hbase : nextOpened levels opened title = baseOpened levels := by
      rw [nextOpened_of_heading htitle, hnone]
      rfl
    have hblank : isBlank title = false :=
      isBlank_eq_false_of_isHeadingLine (isHeadingLine_iff.mpr ⟨_, _, htitle⟩)
    rw [List.nil_append, placeFooters, placeFooters, hall, hbase, hblank]
  | cons line front ih =>
    rw [List.cons_append, placeFooters, placeFooters, ih (one_le_nextOpened hopened line)]
    simp only [List.append_assoc, List.cons_append]

/-- A title cuts the work in two. -/
theorem renewFooters_append_title {text : List Char}
    (htitle : headingOfLine? title = some (1, text))
    (hopened : ∀ level ∈ opened, 1 ≤ level) :
    renewFooters levels rule opened endsBlank (front ++ title :: back) =
      renewFooters levels rule opened endsBlank front ++
        title :: renewFooters levels rule (baseOpened levels) false back := by
  have hcover : ∀ level ∈ opened.head?, 1 ≤ level := fun level hlevel =>
    hopened level (List.mem_of_mem_head? hlevel)
  rw [renewFooters, keptLines_append_title htitle hcover (Nat.zero_le _),
    placeFooters_append_title htitle hopened]
  rfl

theorem renewFooters_cons_of_plain (hheading : isHeadingLine line = false)
    (hfooter : isFooterLine line = false) :
    renewFooters levels rule opened endsBlank (line :: lines) =
      line :: renewFooters levels rule opened (isBlank line) lines := by
  rw [renewFooters, keptLines_cons_of_kept (Or.inr hfooter), nextCover_of_not_heading hheading,
    placeFooters_cons_of_not_heading hheading]
  rfl

theorem renewFooters_append_of_plain (hheading : ∀ line ∈ front, isHeadingLine line = false)
    (hfooter : ∀ line ∈ front, isFooterLine line = false) :
    renewFooters levels rule opened endsBlank (front ++ back) =
      front ++ renewFooters levels rule opened
        ((front.getLast?.map isBlank).getD endsBlank) back := by
  induction front generalizing endsBlank with
  | nil => rfl
  | cons line front ih =>
    rw [List.cons_append, renewFooters_cons_of_plain (hheading line List.mem_cons_self)
      (hfooter line List.mem_cons_self), ih (fun l hl => hheading l (List.mem_cons_of_mem _ hl))
      fun l hl => hfooter l (List.mem_cons_of_mem _ hl), List.getLast?_cons]
    cases front.getLast? <;> rfl

/-! ### Outside of sections -/

theorem renewFooters_nil_cons (levels : List Nat) (rule : Line) (endsBlank : Bool) (line : Line)
    (lines : Buffer) : renewFooters levels rule [] endsBlank (line :: lines) =
      line :: renewFooters levels rule (nextOpened levels [] line) (isBlank line) lines := by
  rw [renewFooters, List.head?_nil, keptLines_cons_of_kept (Or.inl rfl), ← List.head?_nil,
    ← head?_nextOpened List.Pairwise.nil]
  rfl

/-- Nothing is done above the first heading. -/
theorem renewFooters_nil_append (levels : List Nat) (rule : Line) (endsBlank : Bool)
    (hfront : ∀ line ∈ front, isHeadingLine line = false) (back : Buffer) :
    renewFooters levels rule [] endsBlank (front ++ back) =
      front ++ renewFooters levels rule [] endsBlank back := by
  induction front with
  | nil => rfl
  | cons line front ih =>
    have hother : renewFooters levels rule [] (isBlank line) (front ++ back) =
        renewFooters levels rule [] endsBlank (front ++ back) :=
      placeFooters_nil_opened _ _ _ _ _
    rw [List.cons_append, renewFooters_nil_cons,
      nextOpened_of_not_heading (hfront line List.mem_cons_self), hother,
      ih fun l hl => hfront l (List.mem_cons_of_mem _ hl)]
    rfl

/-! ### The outline -/

theorem take_unitReach_sectionPart (rule : Line) (level : Nat) (lines : Buffer) :
    lines.take (unitReach rule false (sectionPart level lines)) =
      (sectionPart level lines).take (unitReach rule false (sectionPart level lines)) := by
  have hparts : sectionPart level lines ++ lines.dropWhile (!endsSection level ·) = lines :=
    List.takeWhile_append_dropWhile
  have htake : (sectionPart level lines ++ lines.dropWhile (!endsSection level ·)).take
      (unitReach rule false (sectionPart level lines)) =
        (sectionPart level lines).take (unitReach rule false (sectionPart level lines)) :=
    List.take_append_of_le_length (unitReach_le_length _ _ _)
  rwa [hparts] at htake

/-- A footer takes only blank lines, rule lines and further footers with it. -/
theorem of_mem_take_unitReach {ruled : Bool} (h : line ∈ lines.take (unitReach rule ruled lines)) :
    isBlank line = true ∨ isMarkLine rule line = true ∨ isFooterLine line = true := by
  induction lines generalizing ruled with
  | nil => simp at h
  | cons first lines ih =>
    rw [unitReach] at h
    split at h
    · next hblank =>
      split at h
      · simp at h
      · next reach hreach =>
        rcases List.mem_cons.mp h with rfl | h
        · exact Or.inl hblank
        · exact ih (by rwa [hreach])
    · split at h
      · next hmark =>
        rw [Bool.and_eq_true] at hmark
        rcases List.mem_cons.mp h with rfl | h
        · exact Or.inr (Or.inl hmark.2)
        · exact ih h
      · split at h
        · next hfooter =>
          rcases List.mem_cons.mp h with rfl | h
          · exact Or.inr (Or.inr hfooter)
          · exact ih h
        · simp at h

/-- What is read off no line that can belong to a footer is left when the footers go. -/
theorem filterMap_keptLines {α : Type} {read : Line → Option α}
    (hblank : ∀ line, isBlank line = true → read line = none)
    (hmark : ∀ line, isMarkLine rule line = true → read line = none)
    (hfooter : ∀ line, isFooterLine line = true → read line = none)
    (hinside : ∀ line ∈ lines.take inside, read line = none) :
    (keptLines levels rule cover inside lines).filterMap read = lines.filterMap read := by
  induction lines generalizing cover inside with
  | nil => rfl
  | cons line lines ih =>
    cases inside with
    | succ inside =>
      rw [keptLines, List.filterMap_cons_none (hinside line (by simp)),
        ih fun l hl => hinside l (List.mem_cons_of_mem _ hl)]
    | zero =>
      rcases kept_or_footer cover line with hkept | ⟨level, rfl, hline⟩
      · rw [keptLines_cons_of_kept hkept, List.filterMap_cons, List.filterMap_cons, ih (by simp)]
      · rw [keptLines_cons_of_footer hline, List.filterMap_cons_none (hfooter line hline), ih]
        intro l hl
        -- All lines that go with the footer are of the kinds that are not read.
        rw [take_unitReach_sectionPart] at hl
        rcases of_mem_take_unitReach hl with hl | hl | hl
        · exact hblank l hl
        · exact hmark l hl
        · exact hfooter l hl

theorem filter_keptLines {test : Line → Bool}
    (hblank : ∀ line, isBlank line = true → test line = false)
    (hmark : ∀ line, isMarkLine rule line = true → test line = false)
    (hfooter : ∀ line, isFooterLine line = true → test line = false) :
    (keptLines levels rule cover 0 lines).filter test = lines.filter test := by
  rw [← List.filterMap_eq_filter]
  exact filterMap_keptLines (fun line h => by simp [Option.guard, hblank line h])
    (fun line h => by simp [Option.guard, hmark line h])
    (fun line h => by simp [Option.guard, hfooter line h]) (by simp)

theorem outline_keptLines
    (hrule : ∀ line, isHeadingLine line = true → isMarkLine rule line = false) :
    outline (keptLines levels rule cover 0 lines) = outline lines := by
  rw [outline_eq_filterMap, outline_eq_filterMap]
  refine filterMap_keptLines (fun line h => ?_) (fun line h => ?_) (fun line h => ?_) (by simp)
  · exact isHeadingLine_eq_false_iff.mp (isHeadingLine_eq_false_of_isBlank h)
  · rw [← isHeadingLine_eq_false_iff]
    by_contra hheading
    rw [hrule line (by simpa using hheading)] at h
    cases h
  · exact isHeadingLine_eq_false_iff.mp (isHeadingLine_eq_false_of_isFooterLine h)

/-- The stage keeps the outline where no heading passes for a rule line. -/
theorem outline_renewFooters (hheading : isHeadingLine rule = false)
    (hrule : ∀ line, isHeadingLine line = true → isMarkLine rule line = false) :
    outline (renewFooters levels rule opened endsBlank lines) = outline lines := by
  rw [renewFooters, outline_placeFooters hheading, outline_keptLines hrule]

/-! ### Old footers and new ones -/

theorem nextCover_of_not_endsSection (h : endsSection level line = false) :
    nextCover levels (some level) line = some level := by
  cases hline : headingOfLine? line with
  | none => exact nextCover_of_not_heading (isHeadingLine_eq_false_iff.mpr hline)
  | some pair =>
    rw [endsSection_of_headingOfLine? hline, decide_eq_false_iff_not] at h
    rw [nextCover_of_heading hline, Option.filter_some, if_pos (by simp; omega)]
    rfl

theorem endsSection_eq_false_of_mem_sectionPart (h : line ∈ sectionPart level lines) :
    endsSection level line = false := by
  have := List.all_eq_true.mp List.all_takeWhile line h
  simpa using this

/-- No footer stays inside a section. -/
theorem noOldFooter_keptLines
    (hinside : inside = 0 ∨ ∃ level, cover = some level ∧
      ∀ line ∈ lines.take inside, endsSection level line = false) :
    NoOldFooter levels cover (keptLines levels rule cover inside lines) := by
  induction lines generalizing cover inside with
  | nil => trivial
  | cons line lines ih =>
    cases inside with
    | succ inside =>
      obtain ⟨level, rfl, hall⟩ := hinside.resolve_left (Nat.succ_ne_zero _)
      rw [keptLines, nextCover_of_not_endsSection (hall line (by simp))]
      exact ih (Or.inr ⟨level, rfl, fun l hl => hall l (List.mem_cons_of_mem _ hl)⟩)
    | zero =>
      rcases kept_or_footer cover line with hkept | ⟨level, rfl, hfooter⟩
      · rw [keptLines_cons_of_kept hkept]
        exact ⟨hkept, ih (Or.inl rfl)⟩
      · rw [keptLines_cons_of_footer hfooter]
        refine ih (Or.inr ⟨level, rfl, fun l hl => ?_⟩)
        rw [take_unitReach_sectionPart] at hl
        exact endsSection_eq_false_of_mem_sectionPart (List.mem_of_mem_take hl)

/-- Where no footer stands inside a section, none goes. -/
theorem keptLines_append (h : NoOldFooter levels cover front) (rule : Line) (back : Buffer) :
    keptLines levels rule cover 0 (front ++ back) =
      front ++ keptLines levels rule (coverAfter levels cover front) 0 back := by
  induction front generalizing cover with
  | nil => rfl
  | cons line front ih =>
    obtain ⟨hkept, hrest⟩ := h
    rw [List.cons_append, keptLines_cons_of_kept hkept, ih hrest]
    rfl

/-- The empty line above a stack of footers belongs to the section. -/
theorem footerStack_eq_gapAbove (rule : Line) (count : Nat) (endsBlank : Bool) :
    footerStack rule count endsBlank = gapAbove count endsBlank ++ footerStack rule count true := by
  cases count with
  | zero => rfl
  | succ count => cases endsBlank <;> rfl

theorem isFooterLine_backToTop : isFooterLine backToTop = true := by
  decide

theorem isBlank_backToTop : isBlank backToTop = false := by
  decide

/-- How the lines of new footers are read in a later pass: empty lines and links as they are, and
the rule line as lines that go with the link above them. If these lines include the one rule line
that a footer may take with it, `ruled` holds. -/
structure ReadsBack (rule : Line) (ruled : Bool) (read : Line → Buffer) : Prop where
  /-- Empty lines are read as they are. -/
  empty : read [] = [[]]
  /-- Links are read as they are. -/
  link : read backToTop = [backToTop]
  /-- The rule line is read as some line at least. -/
  visible : read rule ≠ []
  /-- No line of it is a heading. -/
  plain : ∀ line ∈ read rule, isHeadingLine line = false
  /-- All its lines go with the footer above them. -/
  reach : ∀ rest, unitReach rule false (read rule ++ rest) =
    (read rule).length + unitReach rule ruled rest
  /-- The link of a further footer is not taken for the rule line. -/
  unmarked : (!ruled && isMarkLine rule backToTop) = false

/-- A rule line that is no heading is read back as it was written. -/
theorem readsBack_singleton (hheading : isHeadingLine rule = false)
    (hblank : isBlank rule = false) :
    ReadsBack rule true fun line => [line] where
  empty := rfl
  link := rfl
  visible := List.cons_ne_nil _ _
  plain := by simpa using hheading
  reach rest := by simp [unitReach, hblank, isMarkLine_self, Nat.add_comm]
  unmarked := rfl

variable {read : Line → Buffer} {ruled : Bool}

theorem ReadsBack.isHeadingLine_eq_false (h : ReadsBack rule ruled read) {count : Nat}
    (hline : line ∈ (footerStack rule count endsBlank).flatMap read) :
    isHeadingLine line = false := by
  obtain ⟨source, hsource, hline⟩ := List.mem_flatMap.mp hline
  rcases mem_footerStack hsource with rfl | rfl | hrule
  · rw [h.empty] at hline
    rw [List.mem_singleton.mp hline]
    rfl
  · rw [h.link] at hline
    rw [List.mem_singleton.mp hline]
    exact isHeadingLine_backToTop
  · rw [hrule] at hline
    exact h.plain line hline

/-- The reach of a footer over an empty line and its rule line. -/
theorem ReadsBack.unitReach_cons (h : ReadsBack rule ruled read) (rest : Buffer) :
    unitReach rule false ([] :: (read rule ++ rest)) =
      1 + (read rule).length + unitReach rule ruled rest := by
  have hpos : 0 < (read rule).length := List.length_pos_iff.mpr h.visible
  have hblank : isBlank ([] : Line) = true := rfl
  rw [unitReach, if_pos hblank, h.reach]
  split <;> omega

/-- Behind a rule line, a whole stack of footers goes with the footer above it. -/
theorem ReadsBack.unitReach_footerStack (h : ReadsBack rule ruled read)
    (hrule : isBlank rule = false) (count : Nat) {back : Buffer}
    (hback : unitReach rule ruled back = 0) :
    unitReach rule ruled ((footerStack rule count false).flatMap read ++ back) =
      ((footerStack rule count false).flatMap read).length := by
  induction count with
  | zero => exact hback
  | succ count ih =>
    rw [footerStack, hrule]
    generalize footerStack rule count false = stack at ih
    have hstack : ([[]] ++ [backToTop, [], rule] ++ stack).flatMap read ++ back =
        [] :: backToTop :: [] :: (read rule ++ (stack.flatMap read ++ back)) := by
      simp [h.empty, h.link]
    have hlength : (([[]] ++ [backToTop, [], rule] ++ stack).flatMap read).length =
        3 + (read rule).length + (stack.flatMap read).length := by
      simp [h.empty, h.link]
      omega
    -- The next footer goes as well: its link is met behind the empty line, then its own rule line.
    have hreach := h.unitReach_cons (stack.flatMap read ++ back)
    rw [ih] at hreach
    have hblank : isBlank ([] : Line) = true := rfl
    have hcons : unitReach rule ruled
        (backToTop :: [] :: (read rule ++ (stack.flatMap read ++ back))) =
          1 + (read rule).length + (stack.flatMap read).length + 1 := by
      rw [unitReach, if_neg (by simp [isBlank_backToTop]), if_neg (by simp [h.unmarked]),
        if_pos isFooterLine_backToTop, hreach]
    show unitReach rule ruled (([[]] ++ [backToTop, [], rule] ++ stack).flatMap read ++ back) =
      (([[]] ++ [backToTop, [], rule] ++ stack).flatMap read).length
    rw [hstack, hlength, unitReach, if_pos hblank, hcons]
    split <;> omega

theorem unitReach_of_heading (h : isHeadingLine line = true)
    (hmark : (!ruled && isMarkLine rule line) = false) :
    unitReach rule ruled (line :: rest) = 0 := by
  simp [unitReach, isBlank_eq_false_of_isHeadingLine h, hmark,
    isFooterLine_eq_false_of_isHeadingLine h]

theorem keptLines_append_inside (hfront : ∀ line ∈ front, isHeadingLine line = false) :
    keptLines levels rule cover front.length (front ++ back) =
      keptLines levels rule cover 0 back := by
  induction front with
  | nil => rfl
  | cons line front ih =>
    rw [List.cons_append, List.length_cons, keptLines,
      nextCover_of_not_heading (hfront line List.mem_cons_self)]
    exact ih fun l hl => hfront l (List.mem_cons_of_mem _ hl)

theorem gapAbove_eq_nil_or (count : Nat) (endsBlank : Bool) :
    gapAbove count endsBlank = [] ∨ gapAbove count endsBlank = [[]] := by
  rw [gapAbove]
  split
  · exact Or.inl rfl
  · exact Or.inr rfl

theorem ReadsBack.flatMap_gapAbove (h : ReadsBack rule ruled read) (count : Nat)
    (endsBlank : Bool) :
    (gapAbove count endsBlank).flatMap read = gapAbove count endsBlank := by
  rcases gapAbove_eq_nil_or count endsBlank with hgap | hgap
  · rw [hgap]
    rfl
  · rw [hgap, List.flatMap_singleton, h.empty]

/-- The empty line above a footer stays, and the same sections are open behind it. -/
theorem keptLines_gapAbove_append (levels : List Nat) (rule : Line) (cover : Option Nat)
    (count : Nat) (endsBlank : Bool) (back : Buffer) :
    keptLines levels rule cover 0 (gapAbove count endsBlank ++ back) =
      gapAbove count endsBlank ++ keptLines levels rule cover 0 back := by
  have hempty : isHeadingLine ([] : Line) = false := rfl
  rcases gapAbove_eq_nil_or count endsBlank with hgap | hgap
  · rw [hgap]
    rfl
  · rw [hgap, List.singleton_append, keptLines_cons_of_kept (Or.inr rfl),
      nextCover_of_not_heading hempty]
    rfl

/-- The lines behind a footer do not go with it where a heading comes first. -/
theorem unitReach_sectionPart_of_heading (level : Nat) (hback : ∀ line ∈ back.head?,
      isHeadingLine line = true ∧ (!ruled && isMarkLine rule line) = false) :
    unitReach rule ruled (sectionPart level back) = 0 := by
  cases back with
  | nil => rfl
  | cons first back =>
    cases hends : endsSection level first with
    | true =>
      rw [sectionPart_cons_of_ends hends]
      rfl
    | false =>
      rw [sectionPart_cons_of_stays hends]
      exact unitReach_of_heading (hback first rfl).1 (hback first rfl).2

/-- A stack of new footers goes as a whole, but for the empty line above it. -/
theorem ReadsBack.keptLines_footerStack (h : ReadsBack rule ruled read)
    (hblank : isBlank rule = false) (levels : List Nat) (level count : Nat) (endsBlank : Bool)
    (back : Buffer) (hback : ∀ line ∈ back.head?,
      isHeadingLine line = true ∧ (!ruled && isMarkLine rule line) = false) :
    keptLines levels rule (some level) 0 ((footerStack rule count endsBlank).flatMap read ++ back) =
      gapAbove count endsBlank ++ keptLines levels rule (some level) 0 back := by
  rw [footerStack_eq_gapAbove, List.flatMap_append, h.flatMap_gapAbove, List.append_assoc,
    keptLines_gapAbove_append]
  congr 1
  cases count with
  | zero => rfl
  | succ count =>
    -- All that stands below the first link of the stack.
    generalize hinner : [] :: (read rule ++ (footerStack rule count false).flatMap read) = inner
    have hstack : (footerStack rule (count + 1) true).flatMap read ++ back =
        backToTop :: (inner ++ back) := by
      rw [footerStack, hblank, ← hinner]
      simp [footerLines, h.empty, h.link]
    have hplain : ∀ line ∈ inner, isHeadingLine line = false := by
      rw [← hinner]
      refine List.forall_mem_cons.mpr ⟨rfl, fun line hline => ?_⟩
      rcases List.mem_append.mp hline with hline | hline
      · exact h.plain line hline
      · exact h.isHeadingLine_eq_false hline
    have hpart : sectionPart level (inner ++ back) = inner ++ sectionPart level back :=
      List.takeWhile_append_of_pos fun line hline => by
        simp [endsSection_eq_false (hplain line hline)]
    have hreach : unitReach rule false (inner ++ sectionPart level back) = inner.length := by
      have hrest := h.unitReach_footerStack hblank count
        (unitReach_sectionPart_of_heading level hback)
      rw [← hinner, List.cons_append, List.append_assoc, h.unitReach_cons, hrest]
      simp only [List.length_cons, List.length_append]
      omega
    rw [hstack, keptLines_cons_of_footer isFooterLine_backToTop, hpart, hreach]
    exact keptLines_append_inside hplain

/-- What is taken out again of new footers: all but the empty lines above them. -/
theorem ReadsBack.keptLines_placeFooters (h : ReadsBack rule ruled read)
    (hblank : isBlank rule = false) (hopened : opened.Pairwise (· < ·))
    (hread : ∀ line ∈ lines, read line = [line] ∧ (!ruled && isMarkLine rule line) = false)
    (hold : NoOldFooter levels opened.head? lines) :
    keptLines levels rule opened.head? 0
        ((placeFooters levels rule opened endsBlank lines).flatMap read) =
      padSections levels opened endsBlank lines := by
  induction lines generalizing opened endsBlank with
  | nil =>
    cases opened with
    | nil => rfl
    | cons outer opened =>
      have hstack := h.keptLines_footerStack hblank levels outer (outer :: opened).length
        endsBlank [] (by simp)
      rw [List.append_nil] at hstack
      rw [placeFooters, List.head?_cons, hstack, padSections, keptLines, List.append_nil]
  | cons line lines ih =>
    obtain ⟨hkept, hrest⟩ := hold
    obtain ⟨hline, hreads⟩ := List.forall_mem_cons.mp hread
    rw [← head?_nextOpened hopened line] at hrest
    have hcons : keptLines levels rule opened.head? 0 (line ::
        (placeFooters levels rule (nextOpened levels opened line) (isBlank line) lines).flatMap
          read) =
          line :: padSections levels (nextOpened levels opened line) (isBlank line) lines := by
      rw [keptLines_cons_of_kept hkept, ← head?_nextOpened hopened line,
        ih (pairwise_nextOpened hopened line) hreads hrest]
    rw [placeFooters, padSections, List.flatMap_append, List.flatMap_cons, hline.1,
      List.singleton_append]
    cases hcount : closingCount opened line with
    | zero => exact hcons
    | succ count =>
      -- The line is a heading, and no footer reaches over it.
      have hheading : isHeadingLine line = true :=
        isHeadingLine_of_closingCount (by rw [hcount]; exact Nat.succ_ne_zero count)
      cases opened with
      | nil => cases hcount
      | cons outer opened =>
        rw [List.head?_cons] at hcons ⊢
        have hback : ∀ first ∈ (line :: (placeFooters levels rule (nextOpened levels
            (outer :: opened) line) (isBlank line) lines).flatMap read).head?,
            isHeadingLine first = true ∧ (!ruled && isMarkLine rule first) = false := by
          intro first hfirst
          obtain rfl := Option.some.inj hfirst
          exact ⟨hheading, hline.2⟩
        rw [h.keptLines_footerStack hblank levels outer _ _ _ hback, hcons]

/-- An empty line put above the footers stands in for the one that they would bring. -/
theorem placeFooters_gapAbove {count : Nat} {placed : Buffer} (hplaced : ∀ ends,
      placeFooters levels rule opened ends lines = footerStack rule count ends ++ placed) :
    placeFooters levels rule opened endsBlank (gapAbove count endsBlank ++ lines) =
      footerStack rule count endsBlank ++ placed := by
  rw [footerStack_eq_gapAbove, gapAbove]
  cases hgapped : (decide (count = 0) || endsBlank) with
  | false =>
    have hempty : isHeadingLine ([] : Line) = false := rfl
    have hblank : isBlank ([] : Line) = true := rfl
    simp only [Bool.false_eq_true, if_false, List.cons_append, List.nil_append]
    rw [placeFooters_cons_of_not_heading hempty, hblank, hplaced]
  | true =>
    simp only [if_true, List.nil_append, hplaced]
    rw [Bool.or_eq_true, decide_eq_true_eq] at hgapped
    rcases hgapped with rfl | rfl <;> rfl

/-- The empty lines that stay make no difference when footers are put in again. -/
theorem placeFooters_padSections (levels : List Nat) (rule : Line) (opened : List Nat)
    (endsBlank : Bool) (lines : Buffer) :
    placeFooters levels rule opened endsBlank (padSections levels opened endsBlank lines) =
      placeFooters levels rule opened endsBlank lines := by
  induction lines generalizing opened endsBlank with
  | nil =>
    have hpad : placeFooters levels rule opened endsBlank
        (gapAbove opened.length endsBlank ++ []) =
          footerStack rule opened.length endsBlank ++ [] :=
      placeFooters_gapAbove fun _ => (List.append_nil _).symm
    rwa [List.append_nil, List.append_nil] at hpad
  | cons line lines ih =>
    rw [padSections, placeFooters]
    refine placeFooters_gapAbove fun ends => ?_
    rw [placeFooters, ih]

/-- Renewing the footers twice is renewing them once. -/
theorem renewFooters_renewFooters (hheading : isHeadingLine rule = false)
    (hblank : isBlank rule = false) (endsBlank other : Bool) (lines : Buffer) :
    renewFooters levels rule [] other (renewFooters levels rule [] endsBlank lines) =
      renewFooters levels rule [] endsBlank lines := by
  have hold : NoOldFooter levels none (keptLines levels rule none 0 lines) :=
    noOldFooter_keptLines (Or.inl rfl)
  have htaken : keptLines levels rule none 0 (renewFooters levels rule [] endsBlank lines) =
      padSections levels [] endsBlank (keptLines levels rule none 0 lines) := by
    have hread := readsBack_singleton hheading hblank
    rw [← hread.keptLines_placeFooters hblank List.Pairwise.nil (fun _ _ => ⟨rfl, rfl⟩) hold,
      List.flatMap_singleton']
    rfl
  calc renewFooters levels rule [] other (renewFooters levels rule [] endsBlank lines)
      = placeFooters levels rule [] other
          (padSections levels [] endsBlank (keptLines levels rule none 0 lines)) := by
        rw [renewFooters, List.head?_nil, htaken]
    _ = placeFooters levels rule [] endsBlank
          (padSections levels [] endsBlank (keptLines levels rule none 0 lines)) :=
        placeFooters_nil_opened _ _ _ _ _
    _ = renewFooters levels rule [] endsBlank lines := placeFooters_padSections _ _ _ _ _

/-! ### Settled footers -/

/-- A buffer with a stack of old footers, one that lost its rule line, and one outside of every
section. -/
def scatteredFooters : Buffer :=
  [backToTop, "## A".toList, backToTop, [], "***".toList, [], backToTop, "text".toList,
    "### B".toList, backToTop, []]

/-- Whatever a buffer held, its footers are settled once they have been renewed. -/
theorem ensureFooters_ensureFooters {rule : List Char} (hrule : isBlank (ruleLine rule) = false)
    (levels : List Nat) (lines : Buffer) :
    ensureFooters (ensureFooters lines levels rule) levels rule =
      ensureFooters lines levels rule := by
  have hheading : isHeadingLine (ruleLine rule) = false := isHeadingLine_ruleLine rule
  calc ensureFooters (ensureFooters lines levels rule) levels rule
      = renewFooters levels (ruleLine rule) [] true
          (renewFooters levels (ruleLine rule) [] true lines) := by
        rw [ensureFooters_eq _ levels rule true, ensureFooters_eq lines levels rule true]
    _ = renewFooters levels (ruleLine rule) [] true lines :=
        renewFooters_renewFooters hheading hrule true true lines
    _ = ensureFooters lines levels rule := (ensureFooters_eq lines levels rule true).symm

theorem ensureFooters_ensureFooters_scattered :
    isBlank (ruleLine "***".toList) = false ∧
      ensureFooters (ensureFooters scatteredFooters [2, 3, 2, 9] "***".toList) [2, 3, 2, 9]
          "***".toList =
        ensureFooters scatteredFooters [2, 3, 2, 9] "***".toList :=
  ⟨by decide, ensureFooters_ensureFooters (by decide) _ _⟩

end Waymark
