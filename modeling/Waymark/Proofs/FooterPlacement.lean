import Waymark.Proofs.Pieces
import Waymark.Proofs.Sections

/-!
# Where the footers stand

When the footers are renewed, every section of a configured level ends in a footer of its
own, and there is no other footer in any section. Footers are put in above a heading or
at the end of the note only, so what a buffer shows between two of its headings is what
was kept there and a stack of footers below it, one for each open section that the second
heading ends. Lines outside the sections are neither taken nor moved past one another.

Two things are asked of the rule line. A blank one could not be told from the empty lines
around it, and one that reads like the link of a footer would count as a footer of its own.

## Main definitions

* `stackedFooters` — footers one below the other, with single empty lines between them
* `HasFooters` — what is asked of a buffer with its footers renewed

## Main results

* `exists_of_placeFooters_eq` — what stands below a heading was placed with its open sections
* `exists_stackedFooters` — the lines from the last heading to the end of a section
* `countP_isFooterLine_placeFooters` — how many footers stand in sections
* `filter_markSections_placeFooters`, `filter_markSections_keptLines` — the lines outside stay
* `hasFooters_ensureFooters` — the footers of every renewed buffer
-/

namespace Waymark

/-- `count` footers one below the other, with single empty lines between them. -/
def stackedFooters (rule : Line) (count : Nat) : List Line :=
  [[]].intercalate (List.replicate count [backToTop, [], rule])

/-- What is asked of the buffer `out` that `lines` become when the footers of the sections at the
given levels are renewed. -/
structure HasFooters (lines out : Buffer) (levels : List Nat) (rule : Line) : Prop where
  /-- Every section of a configured level ends in a blank line and a footer. -/
  ends : ∀ position head, (headings out)[position]? = some head →
    levels.contains head.level = true → ∃ last front blank back,
      sectionEndAt? (headings out) position out.length = some last ∧
        out = front ++ [blank, backToTop, [], rule] ++ back ∧ isBlank blank = true ∧
          head.line < front.length ∧ last = front.length + 3
  /-- Sections hold as many footers as there are sections. -/
  count : out.zipIdx.countP
      (fun pair => isFooterLine pair.1 && coversLine (sectionsOf levels out) pair.2) =
    (headings out).countP fun head => levels.contains head.level
  /-- Where several sections end on one line, this many footers stand one below the other, and no
  further one between them and the last heading. -/
  stacked : ∀ last, 0 < (sectionsOf levels out).countP (·.last == last) →
    ∃ front title body blank back, out = front ++ title :: (body ++ blank ::
        stackedFooters rule ((sectionsOf levels out).countP (·.last == last))) ++ back ∧
      out.length = last + 1 + back.length ∧ isHeadingLine title = true ∧ isBlank blank = true ∧
        ∀ line ∈ body, isHeadingLine line = false ∧ isFooterLine line = false
  /-- The lines outside of sections are those that were, in their order. -/
  outside : out.without (sectionsOf levels out) = lines.without (sectionsOf levels lines)

variable {levels opened : List Nat} {rule line title : Line} {cover : Option Nat}
variable {lines front back above below part : Buffer} {endsBlank : Bool} {level count inside : Nat}

/-! ### Stacks of footers -/

theorem stackedFooters_eq (hrule : isBlank rule = false) (count : Nat) :
    stackedFooters rule count = footerStack rule count true := by
  induction count with
  | zero => rfl
  | succ count ih =>
    rw [footerStack, hrule, footerStack_eq_gapAbove, ← ih, stackedFooters, stackedFooters]
    cases count with
    | zero => rfl
    | succ count => rfl

/-- A stack of footers ends in a footer, with a blank line above it. -/
theorem exists_stackedFooters_eq (hrule : isBlank rule = false) {blank : Line}
    (hblank : isBlank blank = true) (count : Nat) :
    ∃ front last, blank :: stackedFooters rule (count + 1) =
      front ++ [last, backToTop, [], rule] ∧ isBlank last = true := by
  rw [stackedFooters_eq hrule, footerStack_succ]
  cases count with
  | zero => exact ⟨[], blank, rfl, hblank⟩
  | succ count =>
    refine ⟨blank :: footerStack rule (count + 1) true, [], ?_, rfl⟩
    simp [footerLines, hrule]

theorem countP_footerStack (hrule : isFooterLine rule = false) (count : Nat) (endsBlank : Bool) :
    (footerStack rule count endsBlank).countP isFooterLine = count := by
  have hempty : isFooterLine ([] : Line) = false := rfl
  induction count generalizing endsBlank with
  | zero => rfl
  | succ count ih =>
    rw [footerStack, List.countP_append, ih, footerLines]
    cases endsBlank <;> simp [hempty, hrule, isFooterLine_backToTop] <;> omega

/-- The lines that are put in at one place are a stack, for the open sections that end there. -/
theorem exists_placeFooters_eq (levels : List Nat) (rule : Line) (opened : List Nat)
    (endsBlank : Bool) (lines : Buffer) :
    ∃ rest, placeFooters levels rule opened endsBlank lines =
      footerStack rule (closingAbove opened lines) endsBlank ++ rest ∧
        rest.head? = lines.head? := by
  cases lines with
  | nil => exact ⟨[], (List.append_nil _).symm, rfl⟩
  | cons line lines => exact ⟨_, rfl, rfl⟩

theorem closingAbove_congr (opened : List Nat) (h : lines.head? = back.head?) :
    closingAbove opened lines = closingAbove opened back := by
  cases lines <;> cases back <;> simp_all [closingAbove]

/-! ### Cutting at a heading -/

theorem openAfter_append (opened : List Nat) (front back : Buffer) :
    openAfter levels opened (front ++ back) =
      openAfter levels (openAfter levels opened front) back :=
  List.foldl_append

theorem openAfter_of_plain (h : ∀ line ∈ front, isHeadingLine line = false) :
    openAfter levels opened front = opened := by
  induction front with
  | nil => rfl
  | cons line front ih =>
    rw [openAfter, List.foldl_cons, nextOpened_of_not_heading (h line List.mem_cons_self)]
    exact ih fun l hl => h l (List.mem_cons_of_mem _ hl)

/-- A heading behind lines that are no headings stands in what follows them. -/
theorem exists_of_append_eq (hfront : ∀ line ∈ front, isHeadingLine line = false)
    (htitle : isHeadingLine title = true) (h : front ++ back = above ++ title :: below) :
    ∃ rest, above = front ++ rest ∧ back = rest ++ title :: below := by
  induction front generalizing above with
  | nil => exact ⟨above, rfl, h⟩
  | cons line front ih =>
    cases above with
    | nil =>
      obtain ⟨rfl, -⟩ := List.cons.inj h
      rw [hfront line List.mem_cons_self] at htitle
      cases htitle
    | cons first above =>
      obtain ⟨rfl, hrest⟩ := List.cons.inj h
      obtain ⟨rest, rfl, hback⟩ := ih (fun l hl => hfront l (List.mem_cons_of_mem _ hl)) hrest
      exact ⟨rest, rfl, hback⟩

/-- What stands below a heading was placed with the sections that are open behind it, whatever
was put in above. -/
theorem exists_of_placeFooters_eq (hrule : isHeadingLine rule = false)
    (htitle : isHeadingLine title = true)
    (h : placeFooters levels rule opened endsBlank lines = above ++ title :: below) :
    ∃ above' below', lines = above' ++ title :: below' ∧
      openAfter levels opened (above' ++ [title]) = openAfter levels opened (above ++ [title]) ∧
      below = placeFooters levels rule (openAfter levels opened (above ++ [title])) (isBlank title)
        below' := by
  induction lines generalizing opened endsBlank above with
  | nil =>
    have hmem : title ∈ footerStack rule opened.length endsBlank := by
      rw [placeFooters] at h
      simp [h]
    rw [isHeadingLine_eq_false_of_mem_footerStack hrule hmem] at htitle
    cases htitle
  | cons line lines ih =>
    have hstack : ∀ l ∈ footerStack rule (closingCount opened line) endsBlank,
        isHeadingLine l = false := fun _ => isHeadingLine_eq_false_of_mem_footerStack hrule
    -- No footer put in is a heading, so the title is the first line or stands below it.
    obtain ⟨rest, rfl, hrest⟩ := exists_of_append_eq hstack htitle h
    rw [List.append_assoc, openAfter_append, openAfter_of_plain hstack]
    cases rest with
    | nil =>
      obtain ⟨rfl, rfl⟩ := List.cons.inj hrest
      exact ⟨[], lines, rfl, rfl, rfl⟩
    | cons first rest =>
      obtain ⟨rfl, hplaced⟩ := List.cons.inj hrest
      obtain ⟨above', below', rfl, hopen, hbelow⟩ := ih hplaced
      exact ⟨line :: above', below', rfl, hopen, hbelow⟩

/-- Lines among which there is a heading have a last one. -/
theorem exists_last_heading (h : ∃ line ∈ lines, isHeadingLine line = true) :
    ∃ above title part, lines = above ++ title :: part ∧ isHeadingLine title = true ∧
      ∀ line ∈ part, isHeadingLine line = false := by
  induction lines with
  | nil =>
    obtain ⟨line, hline, -⟩ := h
    cases hline
  | cons first lines ih =>
    by_cases hrest : ∃ line ∈ lines, isHeadingLine line = true
    · obtain ⟨above, title, part, rfl, htitle, hpart⟩ := ih hrest
      exact ⟨first :: above, title, part, rfl, htitle, hpart⟩
    · have hplain : ∀ line ∈ lines, isHeadingLine line = false := by
        simpa using hrest
      obtain ⟨line, hline, hhead⟩ := h
      rcases List.mem_cons.mp hline with rfl | hline
      · exact ⟨[], line, lines, rfl, hhead, hplain⟩
      · rw [hplain line hline] at hhead
        cases hhead

theorem noOldFooter_of_append (h : NoOldFooter levels cover (front ++ back)) :
    NoOldFooter levels (coverAfter levels cover front) back := by
  induction front generalizing cover with
  | nil => exact h
  | cons line front ih => exact ih h.2

/-- Up to the next heading no footer stands where a section is open. -/
theorem isFooterLine_eq_false_of_noOldFooter (hcover : cover ≠ none)
    (hplain : ∀ line ∈ front, isHeadingLine line = false)
    (h : NoOldFooter levels cover (front ++ back)) : ∀ line ∈ front, isFooterLine line = false := by
  induction front with
  | nil => simp
  | cons line front ih =>
    obtain ⟨hline, hrest⟩ := h
    rw [nextCover_of_not_heading (hplain line List.mem_cons_self)] at hrest
    exact List.forall_mem_cons.mpr ⟨hline.resolve_left hcover,
      ih (fun l hl => hplain l (List.mem_cons_of_mem _ hl)) hrest⟩

/-! ### The end of a section -/

/-- What stands between two headings of a buffer with its footers renewed: lines that are no
footers where a section is open, and a stack of footers for the sections that end there. -/
theorem exists_between_headings (hrule : isHeadingLine rule = false)
    (hold : NoOldFooter levels none lines) (htitle : isHeadingLine title = true)
    (h : placeFooters levels rule [] endsBlank lines = above ++ title :: (part ++ back))
    (hpart : ∀ line ∈ part, isHeadingLine line = false)
    (hback : ∀ line ∈ back.head?, isHeadingLine line = true)
    (hopen : openAfter levels [] (above ++ [title]) ≠ []) :
    ∃ body, (∀ line ∈ body, isHeadingLine line = false ∧ isFooterLine line = false) ∧
      part = body ++ footerStack rule (closingAbove (openAfter levels [] (above ++ [title])) back)
        ((body.getLast?.map isBlank).getD false) := by
  obtain ⟨above', below', rfl, hopened, hbelow⟩ := exists_of_placeFooters_eq hrule htitle h
  rw [isBlank_eq_false_of_isHeadingLine htitle] at hbelow
  -- The sections that are open behind the title hide no old footer below it.
  have hbelowOld : NoOldFooter levels (openAfter levels [] (above ++ [title])).head? below' := by
    rw [← hopened, head?_openAfter List.Pairwise.nil]
    refine noOldFooter_of_append ?_
    simpa using hold
  generalize openAfter levels [] (above ++ [title]) = opened at hbelow hopen hbelowOld
  have hparts :
      below'.takeWhile (!isHeadingLine ·) ++ below'.dropWhile (!isHeadingLine ·) = below' :=
    List.takeWhile_append_dropWhile
  have hbody : ∀ line ∈ below'.takeWhile (!isHeadingLine ·), isHeadingLine line = false := by
    intro line hline
    simpa using List.all_eq_true.mp List.all_takeWhile line hline
  have hrest : ∀ line ∈ (below'.dropWhile (!isHeadingLine ·)).head?, isHeadingLine line = true := by
    intro line hline
    simpa using eq_false_of_mem_head?_dropWhile hline
  generalize below'.takeWhile (!isHeadingLine ·) = body at hparts hbody
  generalize below'.dropWhile (!isHeadingLine ·) = rest at hparts hrest
  subst hparts
  obtain ⟨rest', hplaced, hhead⟩ := exists_placeFooters_eq levels rule opened
    ((body.getLast?.map isBlank).getD false) rest
  rw [placeFooters_append_of_plain hbody, hplaced, ← List.append_assoc] at hbelow
  rw [← hhead] at hrest
  have hstack : ∀ line ∈ body ++ footerStack rule (closingAbove opened rest)
      ((body.getLast?.map isBlank).getD false), isHeadingLine line = false :=
    List.forall_mem_append.mpr
      ⟨hbody, fun _ => isHeadingLine_eq_false_of_mem_footerStack hrule⟩
  -- Both cuts are in front of the next heading, so they are the same.
  obtain ⟨rfl, rfl⟩ :=
    (append_eq_append_iff_of_first isHeadingLine hpart hstack hback hrest).mp hbelow
  have hnotFooter := isFooterLine_eq_false_of_noOldFooter (by simpa using hopen) hbody hbelowOld
  exact ⟨body, fun line hline => ⟨hbody line hline, hnotFooter line hline⟩, by
    rw [closingAbove_congr opened hhead]⟩

/-- Where sections end, the lines from the last heading on end in a blank line and one footer for
each of them. -/
theorem exists_stackedFooters (hrule : isHeadingLine rule = false) (hblank : isBlank rule = false)
    (hold : NoOldFooter levels none lines)
    (h : placeFooters levels rule [] endsBlank lines = front ++ back)
    (hcount : closingAbove (openAfter levels [] front) back = count + 1) :
    ∃ above title body blank, front = above ++ title :: (body ++ blank ::
        stackedFooters rule (count + 1)) ∧ isHeadingLine title = true ∧ isBlank blank = true ∧
      ∀ line ∈ body, isHeadingLine line = false ∧ isFooterLine line = false := by
  have hnone : closingAbove [] back = 0 := by cases back <;> rfl
  -- Some section is open, so there is a last heading.
  have hheading : ∃ line ∈ front, isHeadingLine line = true := by
    by_contra hplain
    rw [openAfter_of_plain (by simpa using hplain), hnone] at hcount
    cases hcount
  obtain ⟨above, title, part, rfl, htitle, hpart⟩ := exists_last_heading hheading
  have hopen : openAfter levels [] (above ++ title :: part) =
      openAfter levels [] (above ++ [title]) := by
    rw [← List.singleton_append, ← List.append_assoc, openAfter_append, openAfter_of_plain hpart]
  have hback : ∀ line ∈ back.head?, isHeadingLine line = true := by
    cases back with
    | nil => simp
    | cons line back =>
      rintro _ ⟨⟩
      by_contra hplain
      rw [closingAbove, closingCount_of_not_heading (by simpa using hplain)] at hcount
      cases hcount
  have hne : openAfter levels [] (above ++ [title]) ≠ [] := by
    intro hnil
    rw [hopen, hnil, hnone] at hcount
    cases hcount
  obtain ⟨body, hbody, rfl⟩ := exists_between_headings hrule hold htitle (by simpa using h) hpart
    hback hne
  rw [hopen] at hcount
  rw [hcount]
  rcases List.eq_nil_or_concat body with rfl | ⟨body, last, rfl⟩
  · exact ⟨above, title, [], [], by simp [stackedFooters_eq hblank, footerStack, footerLines],
      htitle, rfl, by simp⟩
  · cases hlast : isBlank last with
    | true =>
      refine ⟨above, title, body, last, ?_, htitle, hlast,
        fun line hline => hbody line (by simp [hline])⟩
      simp [hlast, stackedFooters_eq hblank]
    | false =>
      refine ⟨above, title, body ++ [last], [], ?_, htitle, rfl, by simpa using hbody⟩
      simp [hlast, stackedFooters_eq hblank, footerStack, footerLines]

/-! ### Lines in sections and outside -/

theorem markSections_append_of_plain (h : ∀ line ∈ front, isHeadingLine line = false) :
    markSections levels cover (front ++ back) =
      front.map (fun line => (line, cover.isSome)) ++ markSections levels cover back := by
  induction front with
  | nil => rfl
  | cons line front ih =>
    have hline := h line List.mem_cons_self
    rw [List.cons_append, markSections, nextCover_of_not_heading hline,
      ih fun l hl => h l (List.mem_cons_of_mem _ hl)]
    cases cover <;> simp [endsSection_eq_false hline]

/-- Footers are put in where some section is open, so they lie in sections. -/
theorem markSections_footerStack (hrule : isHeadingLine rule = false) (opened : List Nat)
    (endsBlank : Bool) (hcount : count ≤ opened.length) (back : Buffer) :
    markSections levels opened.head? (footerStack rule count endsBlank ++ back) =
      (footerStack rule count endsBlank).map (fun line => (line, true)) ++
        markSections levels opened.head? back := by
  rw [markSections_append_of_plain fun _ => isHeadingLine_eq_false_of_mem_footerStack hrule]
  cases opened with
  | nil =>
    obtain rfl : count = 0 := Nat.le_zero.mp hcount
    rfl
  | cons outer opened => rfl

theorem markSections_placeFooters_nil (hrule : isHeadingLine rule = false) :
    markSections levels opened.head? (placeFooters levels rule opened endsBlank []) =
      (footerStack rule opened.length endsBlank).map fun line => (line, true) := by
  have hmarks : markSections levels opened.head? (footerStack rule opened.length endsBlank ++ []) =
      (footerStack rule opened.length endsBlank).map (fun line => (line, true)) ++
        markSections levels opened.head? [] :=
    markSections_footerStack hrule opened endsBlank (Nat.le_refl _) []
  rwa [List.append_nil, markSections, List.append_nil] at hmarks

theorem markSections_placeFooters_cons (hrule : isHeadingLine rule = false)
    (hopened : opened.Pairwise (· < ·)) :
    markSections levels opened.head? (placeFooters levels rule opened endsBlank (line :: lines)) =
      (footerStack rule (closingCount opened line) endsBlank).map (fun line => (line, true)) ++
        (line, opened.head?.any (!endsSection · line)) ::
          markSections levels (nextOpened levels opened line).head?
            (placeFooters levels rule (nextOpened levels opened line) (isBlank line) lines) := by
  have hcount : closingCount opened line ≤ opened.length := List.countP_le_length
  rw [placeFooters, markSections_footerStack hrule _ _ hcount, markSections,
    head?_nextOpened hopened line]

/-- Putting in footers leaves the lines outside of sections as they are. -/
theorem filter_markSections_placeFooters (hrule : isHeadingLine rule = false)
    (hopened : opened.Pairwise (· < ·)) :
    (markSections levels opened.head? (placeFooters levels rule opened endsBlank lines)).filter
        (!·.2) = (markSections levels opened.head? lines).filter (!·.2) := by
  have hstack (stack : List Line) : (stack.map fun line => (line, true)).filter (!·.2) = [] := by
    simp
  induction lines generalizing opened endsBlank with
  | nil =>
    rw [markSections_placeFooters_nil hrule, hstack]
    rfl
  | cons line lines ih =>
    rw [markSections_placeFooters_cons hrule hopened, List.filter_append, hstack, List.nil_append,
      List.filter_cons, ih (pairwise_nextOpened hopened line), markSections, List.filter_cons,
      head?_nextOpened hopened line]

/-- Taking out old footers leaves the lines outside of sections as they are. -/
theorem filter_markSections_keptLines
    (hinside : inside = 0 ∨ ∃ level, cover = some level ∧
      ∀ line ∈ lines.take inside, endsSection level line = false) :
    (markSections levels cover (keptLines levels rule cover inside lines)).filter (!·.2) =
      (markSections levels cover lines).filter (!·.2) := by
  induction lines generalizing cover inside with
  | nil => rfl
  | cons line lines ih =>
    cases inside with
    | succ inside =>
      obtain ⟨level, rfl, hall⟩ := hinside.resolve_left (Nat.succ_ne_zero _)
      have hline := hall line (by simp)
      rw [keptLines, markSections, nextCover_of_not_endsSection hline,
        ih (Or.inr ⟨level, rfl, fun l hl => hall l (List.mem_cons_of_mem _ hl)⟩),
        List.filter_cons_of_neg (by simp [hline])]
    | zero =>
      rcases kept_or_footer cover line with hkept | ⟨level, rfl, hfooter⟩
      · rw [keptLines_cons_of_kept hkept, markSections, markSections, List.filter_cons,
          List.filter_cons, ih (Or.inl rfl)]
      · -- The footer and the lines that go with it end no section, so the cover below is the same.
        have hline : endsSection level line = false :=
          endsSection_eq_false (isHeadingLine_eq_false_of_isFooterLine hfooter)
        rw [keptLines_cons_of_footer hfooter, markSections, nextCover_of_not_endsSection hline,
          List.filter_cons_of_neg (by simp [hline]), ih]
        refine Or.inr ⟨level, rfl, fun l hl => ?_⟩
        rw [take_unitReach_sectionPart] at hl
        exact endsSection_eq_false_of_mem_sectionPart (List.mem_of_mem_take hl)

/-- A heading ends some of the open sections, keeps the others open, and opens its own. -/
theorem length_nextOpened (levels opened : List Nat) (line : Line) :
    closingCount opened line + (nextOpened levels opened line).length =
      opened.length + (outline [line]).countP fun pair => levels.contains pair.1 := by
  cases hline : headingOfLine? line with
  | none =>
    have hplain := isHeadingLine_eq_false_iff.mpr hline
    rw [closingCount_of_not_heading hplain, nextOpened_of_not_heading hplain, outline_singleton,
      hline]
    simp
  | some pair =>
    -- The heading closes an open section, or the section stays open.
    have hsplit :
        opened.length = closingCount opened line + (opened.filter (· < pair.1)).length := by
      rw [List.length_eq_countP_add_countP (endsSection · line), ← List.countP_eq_length_filter,
        closingCount]
      congr 1
      refine List.countP_congr fun level _ => ?_
      simp [endsSection_of_headingOfLine? hline]
    have hnew : (if levels.contains pair.1 then [pair.1] else []).length =
        (outline [line]).countP fun pair => levels.contains pair.1 := by
      rw [outline_singleton, hline]
      cases hlevel : levels.contains pair.1 <;> simp only [Option.toList_some, List.countP_cons,
        List.countP_nil, hlevel] <;> rfl
    rw [nextOpened_of_heading hline, List.length_append, hnew]
    omega

/-- Sections hold as many footers as there are sections, those included that are open around the
lines. -/
theorem countP_isFooterLine_placeFooters (hrule : isHeadingLine rule = false)
    (hfooter : isFooterLine rule = false) (hopened : opened.Pairwise (· < ·))
    (hold : NoOldFooter levels opened.head? lines) :
    (markSections levels opened.head? (placeFooters levels rule opened endsBlank lines)).countP
        (fun pair => isFooterLine pair.1 && pair.2) =
      opened.length + (outline lines).countP fun pair => levels.contains pair.1 := by
  have hstack (count : Nat) (endsBlank : Bool) :
      ((footerStack rule count endsBlank).map fun line => (line, true)).countP
        (fun pair => isFooterLine pair.1 && pair.2) = count := by
    conv_rhs => rw [← countP_footerStack hfooter count endsBlank]
    rw [List.countP_map]
    exact List.countP_congr fun line _ => by simp
  induction lines generalizing opened endsBlank with
  | nil =>
    rw [markSections_placeFooters_nil hrule, hstack]
    rfl
  | cons line lines ih =>
    obtain ⟨hline, hrest⟩ := hold
    rw [← head?_nextOpened hopened line] at hrest
    -- The line itself is an old footer only where no section is open.
    have hhere : (isFooterLine line && opened.head?.any (!endsSection · line)) = false := by
      rcases hline with hline | hline
      · rw [hline, Option.any_none, Bool.and_false]
      · rw [hline, Bool.false_and]
    have hlength := length_nextOpened levels opened line
    rw [markSections_placeFooters_cons hrule hopened, List.countP_append, hstack,
      List.countP_cons_of_neg (by simpa using hhere), ih (pairwise_nextOpened hopened line) hrest,
      outline_cons, List.countP_append]
    omega

theorem le_length_footerStack (read : Line → Buffer) (rule : Line) (count : Nat)
    (endsBlank : Bool) :
    count * ([backToTop, [], rule].flatMap read).length ≤
      ((footerStack rule count endsBlank).flatMap read).length := by
  induction count generalizing endsBlank with
  | zero => simp
  | succ count ih =>
    have hrest := ih (isBlank rule)
    rw [footerStack, footerLines, List.flatMap_append, List.flatMap_append, List.length_append,
      List.length_append, Nat.succ_mul]
    omega

/-- Footers only add lines, and they add one for each section that is open. -/
theorem le_length_placeFooters (read : Line → Buffer) (levels : List Nat) (rule : Line)
    (opened : List Nat) (endsBlank : Bool) (lines : Buffer) :
    opened.length * ([backToTop, [], rule].flatMap read).length + (lines.flatMap read).length ≤
      ((placeFooters levels rule opened endsBlank lines).flatMap read).length := by
  induction lines generalizing opened endsBlank with
  | nil => exact le_length_footerStack read rule opened.length endsBlank
  | cons line lines ih =>
    have hstack := le_length_footerStack read rule (closingCount opened line) endsBlank
    have hrest := ih (nextOpened levels opened line) (isBlank line)
    have hcount := length_nextOpened levels opened line
    have hmul : opened.length * ([backToTop, [], rule].flatMap read).length ≤
        (closingCount opened line + (nextOpened levels opened line).length) *
          ([backToTop, [], rule].flatMap read).length :=
      Nat.mul_le_mul_right _ (by omega)
    rw [Nat.add_mul] at hmul
    generalize ([backToTop, [], rule].flatMap read).length = size at hstack hrest hmul ⊢
    rw [placeFooters, List.flatMap_append, List.flatMap_cons, List.flatMap_cons, List.length_append,
      List.length_append, List.length_append]
    omega

/-! ### Renewed buffers -/

/-- A heading of a buffer is one of its lines. -/
theorem getElem?_of_mem_headingsFrom {start : Nat} {head : Heading}
    (h : head ∈ headingsFrom start lines) :
    ∃ line, lines[head.line - start]? = some line ∧ isHeadingLine line = true := by
  obtain ⟨position, hread⟩ := List.mem_iff_getElem?.mp h
  obtain ⟨front, title, below, rfl, hplace, htitle, -⟩ := exists_of_getElem?_headingsFrom hread
  rw [hplace, Nat.add_sub_cancel_left]
  exact ⟨title, by simp, isHeadingLine_iff.mpr ⟨_, _, htitle⟩⟩

section

variable {out : Buffer} (hrule : isHeadingLine rule = false) (hblank : isBlank rule = false)
  (hout : renewFooters levels rule [] endsBlank lines = out)
include hrule hblank hout

/-- Where sections of a renewed buffer end, there is a stack of as many footers. -/
theorem exists_stackedFooters_of_pos {last : Nat}
    (hend : 0 < (sectionsOf levels out).countP (·.last == last)) :
    ∃ front title body blank back, out = front ++ title :: (body ++ blank ::
        stackedFooters rule ((sectionsOf levels out).countP (·.last == last))) ++ back ∧
      out.length = last + 1 + back.length ∧ isHeadingLine title = true ∧ isBlank blank = true ∧
        ∀ line ∈ body, isHeadingLine line = false ∧ isFooterLine line = false := by
  obtain ⟨span, hspan, hlast⟩ := List.countP_pos_iff.mp hend
  obtain ⟨-, -, hbound⟩ := bounds_of_mem_sectionsOf hspan
  rw [beq_iff_eq] at hlast
  rw [hlast] at hbound
  have hparts : out.take (last + 1) ++ out.drop (last + 1) = out := List.take_append_drop _ _
  have hlength : (out.take (last + 1)).length = last + 1 := List.length_take_of_le hbound
  generalize out.take (last + 1) = front at hparts hlength
  generalize out.drop (last + 1) = back at hparts
  -- Counted by their ends, the sections are the open ones that the next line ends.
  have hcount : (sectionsOf levels out).countP (·.last == last) =
      closingAbove (openAfter levels [] front) back := by
    rw [← countP_last_sectionsOf, hparts, hlength]
    exact List.countP_congr fun span _ => by simp
  obtain ⟨count, hsucc⟩ := Nat.exists_eq_add_one.mpr hend
  rw [hsucc] at hcount ⊢
  rw [renewFooters, ← hparts] at hout
  obtain ⟨above, title, body, blank, rfl, htitle, hblankLine, hbody⟩ :=
    exists_stackedFooters hrule hblank (noOldFooter_keptLines (Or.inl rfl)) hout hcount.symm
  refine ⟨above, title, body, blank, back, hparts.symm, ?_, htitle, hblankLine, hbody⟩
  rw [← hparts, List.length_append, hlength]

/-- A section of a renewed buffer ends in a blank line and a footer. -/
theorem exists_footer_of_getElem? {position : Nat} {head : Heading}
    (hhead : (headings out)[position]? = some head) (hlevel : levels.contains head.level = true) :
    ∃ last front blank back, sectionEndAt? (headings out) position out.length = some last ∧
      out = front ++ [blank, backToTop, [], rule] ++ back ∧ isBlank blank = true ∧
        head.line < front.length ∧ last = front.length + 3 := by
  obtain ⟨last, hlast, hmem⟩ :
      ∃ last, sectionEndAt? (headings out) position out.length = some last ∧
        ⟨head.line + 1, last⟩ ∈ sectionsOf levels out :=
    exists_mem_sectionSpans hhead hlevel
  have hbounds := bounds_of_mem_sectionsOf hmem
  dsimp only at hbounds
  have hend : 0 < (sectionsOf levels out).countP (·.last == last) :=
    List.countP_pos_iff.mpr ⟨_, hmem, by simp⟩
  obtain ⟨above, title, body, blank, back, hparts, hlength, -, hblankLine, -⟩ :=
    exists_stackedFooters_of_pos hrule hblank hout hend
  obtain ⟨count, hsucc⟩ := Nat.exists_eq_add_one.mpr hend
  obtain ⟨front, gap, hstack, hgap⟩ := exists_stackedFooters_eq hblank hblankLine count
  rw [hsucc, hstack] at hparts
  have hfooter :
      out = (above ++ title :: (body ++ front)) ++ [gap, backToTop, [], rule] ++ back := by
    rw [hparts]
    simp
  have hplace : last = (above ++ title :: (body ++ front)).length + 3 := by
    have := congrArg List.length hfooter
    rw [List.length_append, List.length_append] at this
    simp only [List.length_cons, List.length_nil] at this
    omega
  refine ⟨last, above ++ title :: (body ++ front), gap, back, hlast, hfooter, hgap, ?_, hplace⟩
  generalize above ++ title :: (body ++ front) = front at hfooter hplace
  -- The heading stands above the footer, as no line of the footer is a heading.
  obtain ⟨line, hline, hheading⟩ := getElem?_of_mem_headingsFrom (List.mem_of_getElem? hhead)
  rw [Nat.sub_zero, hfooter] at hline
  by_contra hbelow
  rw [List.getElem?_append_left (by simp; omega), List.getElem?_append_right (by omega)] at hline
  have hempty : isHeadingLine ([] : Line) = false := rfl
  have hplain : ∀ line ∈ [gap, backToTop, [], rule], isHeadingLine line = false := by
    simp [isHeadingLine_eq_false_of_isBlank hgap, isHeadingLine_backToTop, hempty, hrule]
  rw [hplain line (List.mem_of_getElem? hline)] at hheading
  cases hheading

end

/-- The footers of a buffer whose footers were renewed: every section of a configured level ends in
its own one, sections that end on one line have theirs one below the other, sections hold no
other ones, and the lines outside of sections are those that were there. -/
theorem hasFooters_ensureFooters (lines : Buffer) (levels : List Nat) (rule : List Char)
    (hblank : isBlank (ruleLine rule) = false) (hfooter : isFooterLine (ruleLine rule) = false) :
    HasFooters lines (ensureFooters lines levels rule) levels (ruleLine rule) := by
  have hrule : isHeadingLine (ruleLine rule) = false := isHeadingLine_ruleLine rule
  have hold : NoOldFooter levels none (keptLines levels (ruleLine rule) none 0 lines) :=
    noOldFooter_keptLines (Or.inl rfl)
  have hout :
      renewFooters levels (ruleLine rule) [] false lines = ensureFooters lines levels rule :=
    (ensureFooters_eq lines levels rule false).symm
  refine ⟨fun position head => exists_footer_of_getElem? hrule hblank hout, ?_,
    fun last => exists_stackedFooters_of_pos hrule hblank hout, ?_⟩
  · have hcount :
        (markSections levels none (renewFooters levels (ruleLine rule) [] false lines)).countP
            (fun pair => isFooterLine pair.1 && pair.2) =
          0 + (outline (keptLines levels (ruleLine rule) none 0 lines)).countP
            fun pair => levels.contains pair.1 :=
      countP_isFooterLine_placeFooters hrule hfooter List.Pairwise.nil hold
    have houtline : outline (ensureFooters lines levels rule) =
        outline (keptLines levels (ruleLine rule) none 0 lines) := by
      rw [← hout]
      exact outline_placeFooters hrule
    have hmarks : (markSections levels none (ensureFooters lines levels rule)).countP
        (fun pair => isFooterLine pair.1 && pair.2) =
          (outline (ensureFooters lines levels rule)).countP fun pair =>
            levels.contains pair.1 := by
      rw [houtline, ← hout, hcount, Nat.zero_add]
    rw [countP_sectionsOf, hmarks, outline, List.countP_map]
    rfl
  · rw [without_sectionsOf, without_sectionsOf, ← hout]
    have hplaced : (markSections levels none
        (renewFooters levels (ruleLine rule) [] false lines)).filter (!·.2) =
          (markSections levels none
            (keptLines levels (ruleLine rule) none 0 lines)).filter (!·.2) :=
      filter_markSections_placeFooters hrule List.Pairwise.nil
    have hkept : (markSections levels none (keptLines levels (ruleLine rule) none 0 lines)).filter
        (!·.2) = (markSections levels none lines).filter (!·.2) :=
      filter_markSections_keptLines (Or.inl rfl)
    exact congrArg (List.map (·.1)) (hplaced.trans hkept)

/-- A section inside another one that ends on the same line, with an old footer and a stray link in
them. -/
def noteOfNestedSections : Buffer :=
  ["# T".toList, "## A".toList, backToTop, "---".toList, "### B".toList, "b".toList,
    "[[#top|↩️Back to Top]]".toList, "#### C".toList, "## D".toList]

theorem hasFooters_noteOfNestedSections :
    (sectionsOf [1, 2, 3] (ensureFooters noteOfNestedSections [1, 2, 3] [])).countP
        (·.last == 12) = 2 ∧
      HasFooters noteOfNestedSections (ensureFooters noteOfNestedSections [1, 2, 3] []) [1, 2, 3]
        (ruleLine []) :=
  ⟨by decide +kernel, hasFooters_ensureFooters noteOfNestedSections [1, 2, 3] [] (by decide)
    (by decide)⟩

end Waymark
