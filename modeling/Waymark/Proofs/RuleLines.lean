import Waymark.Proofs.Anchored
import Waymark.Proofs.Returns

/-!
# Rule lines in a later pass

A rule line is free text: it is written as a line, and the next pass reads it as whatever lines it
then is. Line feeds in it cut it into several lines, and an anchor among these is taken out before
the footers are looked for. A rule line lasts if it is one line that no other stage takes for its
own, or if all that is left of it are links that lead back to the top, which go with the link above
them.

## Main definitions

* `seenLine` — the lines as which the stages below the anchor see a written line
* `LastingRule` — the rule lines that go as a whole with the link above them

## Main results

* `unitReach_of_links` — a run of links goes with the link above it
* `LastingRule.exists_readsBack` — how a lasting rule line is read in a later pass
-/

namespace Waymark

/-- The lines as which the stages below the anchor see a written line: it is cut at its line feeds,
and an anchor within it is out. -/
def seenLine (line : Line) : Buffer :=
  if line = topAnchor then [line] else withoutAnchors (closedLines line)

/-- A rule line that lasts: it is one line and neither the anchor nor a marker line, or it is cut
into lines that are blank or links, of which one comes last. -/
inductive LastingRule (rule : Line) : Prop
  /-- A rule line of one line. -/
  | single (hone : '\n' ∉ rule) (hanchor : rule ≠ topAnchor) (hmarker : isMarkerLine rule = false)
  /-- A rule line of several lines. -/
  | links (hfeed : '\n' ∈ rule) (hlinks : ∀ line ∈ withoutAnchors (splitLines rule),
      isBlank line = true ∨ isFooterLine line = true)
    (hlast : (withoutAnchors (splitLines rule)).getLast?.any isFooterLine = true)

variable {rule line : Line} {lines front run tail : Buffer} {levels : List Nat}
variable {cover : Option Nat} {inside level : Nat}

/-! ### Seen lines -/

theorem closedLines_of_clean (h : CleanLine line) : closedLines line = [line] := by
  rw [closedLines_of_not_mem h.1, withoutReturn_of_getLast? h.2]

theorem seenLine_of_clean (h : CleanLine line) : seenLine line = [line] := by
  rw [seenLine]
  split
  · rfl
  · next hne =>
    rw [closedLines_of_clean h]
    exact withoutAnchors_cons_of_ne hne

theorem seenLine_of_ne (h : line ≠ topAnchor) : seenLine line = withoutAnchors (closedLines line) :=
  if_neg h

theorem flatMap_seenLine (h : topAnchor ∉ lines) :
    lines.flatMap seenLine = withoutAnchors (lines.flatMap closedLines) := by
  induction lines with
  | nil => rfl
  | cons line lines ih =>
    rw [List.flatMap_cons, List.flatMap_cons, withoutAnchors_append,
      ih (List.not_mem_of_not_mem_cons h), seenLine_of_ne (Ne.symm (List.ne_of_not_mem_cons h))]

theorem flatMap_closedLines_of_clean (h : ∀ line ∈ lines, CleanLine line) :
    lines.flatMap closedLines = lines := by
  rw [flatMap_closedLines fun line hline => (h line hline).1]
  exact (List.map_congr_left fun line hline => withoutReturn_of_getLast? (h line hline).2).trans
    (List.map_id' _)

theorem flatMap_seenLine_of_clean (h : ∀ line ∈ lines, CleanLine line) :
    lines.flatMap seenLine = lines := by
  induction lines with
  | nil => rfl
  | cons line lines ih =>
    rw [List.flatMap_cons, seenLine_of_clean (h line List.mem_cons_self),
      ih fun l hl => h l (List.mem_cons_of_mem _ hl)]
    rfl

/-! ### Links below a link -/

/-- A run of links goes with the link above it, whatever comes behind it. -/
theorem unitReach_of_links (hmark : ∀ line ∈ run, isMarkLine rule line = false)
    (hlinks : ∀ line ∈ run, isBlank line = true ∨ isFooterLine line = true)
    (hlast : run.getLast?.any isFooterLine = true) (rest : Buffer) :
    unitReach rule false (run ++ rest) = run.length + unitReach rule false rest := by
  induction run with
  | nil => cases hlast
  | cons line run ih =>
    obtain ⟨hline, hrun⟩ := List.forall_mem_cons.mp hlinks
    obtain ⟨hmarkLine, hmarkRun⟩ := List.forall_mem_cons.mp hmark
    rw [List.cons_append, List.length_cons]
    cases run with
    | nil =>
      have hfooter : isFooterLine line = true := hlast
      simp [unitReach, isBlank_eq_false_of_isFooterLine hfooter, hmarkLine, hfooter, Nat.add_comm]
    | cons next run =>
      -- A blank line is taken along because the run does not end with it.
      have hreach := ih hmarkRun hrun hlast
      rw [unitReach, hreach]
      by_cases hblank : isBlank line = true
      · rw [if_pos hblank, List.length_cons]
        split <;> omega
      · rw [if_neg hblank, if_neg (by simp [hmarkLine]), if_pos (hline.resolve_left hblank)]
        omega

/-- No line is taken for a rule line that holds a line feed. -/
theorem isMarkLine_eq_false_of_newline (hfeed : '\n' ∈ rule) (hline : '\n' ∉ line) :
    isMarkLine rule line = false := by
  by_contra hmark
  obtain ⟨rest, rfl, -⟩ := isMarkLine_iff.mp (by simpa using hmark)
  exact hline (List.mem_append_left _ hfeed)

/-! ### What stays of the lines below a link -/

/-- A footer does not take a blank line with it that comes last. -/
theorem unitReach_concat_le (hblank : isBlank line = true) (ruled : Bool) (front : Buffer) :
    unitReach rule ruled (front ++ [line]) ≤ front.length := by
  induction front generalizing ruled with
  | nil =>
    rw [List.nil_append, unitReach, if_pos hblank]
    rfl
  | cons first front ih =>
    have hruled := ih ruled
    have htrue := ih true
    have hfalse := ih false
    rw [List.cons_append, unitReach, List.length_cons]
    split
    · split <;> omega
    · split
      · omega
      · split <;> omega

/-- A blank line that comes last stays when the footers are taken out. -/
theorem mem_keptLines_concat (hblank : isBlank line = true) (hinside : inside ≤ front.length) :
    line ∈ keptLines levels rule cover inside (front ++ [line]) := by
  induction front generalizing cover inside with
  | nil =>
    obtain rfl : inside = 0 := Nat.le_zero.mp hinside
    rw [List.nil_append, keptLines_cons_of_kept (Or.inr (isFooterLine_eq_false_of_isBlank hblank))]
    exact List.mem_cons_self
  | cons first front ih =>
    cases inside with
    | succ inside => exact ih (Nat.le_of_succ_le_succ hinside)
    | zero =>
      rw [List.cons_append]
      rcases kept_or_footer cover first with hkept | ⟨level, rfl, hfooter⟩
      · rw [keptLines_cons_of_kept hkept]
        exact List.mem_cons_of_mem _ (ih (Nat.zero_le _))
      · -- The footer that is taken out ends above the blank line, in its section or before.
        rw [keptLines_cons_of_footer hfooter]
        refine ih ?_
        have hplain : endsSection level line = false :=
          endsSection_eq_false (isHeadingLine_eq_false_of_isBlank hblank)
        rw [sectionPart, List.takeWhile_append]
        split
        · rw [List.takeWhile_cons_of_pos (by simp [hplain]), List.takeWhile_nil]
          exact unitReach_concat_le hblank _ _
        · exact (unitReach_le_length _ _ _).trans (List.takeWhile_sublist _).length_le

/-- Lines that are taken out as a whole with the link above them are blank lines, rule lines and
links, and the last of them is not blank. -/
theorem of_keptLines_eq_nil
    (h : keptLines levels rule (some level) 0 (backToTop :: [] :: tail) = []) :
    (∀ line ∈ tail, isBlank line = true ∨ isMarkLine rule line = true ∨ isFooterLine line = true) ∧
      ∃ last ∈ tail.getLast?, isBlank last = false := by
  constructor
  · intro line hline
    by_contra hother
    simp only [not_or, Bool.not_eq_true] at hother
    -- A line that is none of these is filtered out nowhere.
    have hfilter : (keptLines levels rule (some level) 0 (backToTop :: [] :: tail)).filter
        (fun l => !(isBlank l || isMarkLine rule l || isFooterLine l)) =
          (backToTop :: [] :: tail).filter
            fun l => !(isBlank l || isMarkLine rule l || isFooterLine l) :=
      filter_keptLines (fun l hl => by simp [hl]) (fun l hl => by simp [hl])
        fun l hl => by simp [hl]
    rw [h, List.filter_nil, eq_comm, List.filter_eq_nil_iff] at hfilter
    exact hfilter line (by simp [hline]) (by simp [hother])
  · rcases List.eq_nil_or_concat tail with rfl | ⟨front, last, rfl⟩
    · have hmem : ([] : Line) ∈ keptLines levels rule (some level) 0 ([backToTop] ++ [[]]) :=
        mem_keptLines_concat rfl (Nat.zero_le _)
      rw [List.singleton_append, h] at hmem
      cases hmem
    · refine ⟨last, by simp, ?_⟩
      by_contra hblank
      have hmem : last ∈ keptLines levels rule (some level) 0
          ((backToTop :: [] :: front) ++ [last]) :=
        mem_keptLines_concat (by simpa using hblank) (Nat.zero_le _)
      rw [List.concat_eq_append] at h
      rw [List.cons_append, List.cons_append, h] at hmem
      cases hmem

/-! ### Lasting rule lines -/

variable (hheading : isHeadingLine rule = false) (hreturn : rule.getLast? ≠ some '\r')

theorem LastingRule.ne_topAnchor (h : LastingRule rule) : rule ≠ topAnchor := by
  cases h with
  | single _ hanchor _ => exact hanchor
  | links hfeed _ _ =>
    rintro rfl
    revert hfeed
    decide

include hreturn in
theorem LastingRule.seenLine_eq (h : LastingRule rule) :
    seenLine rule = withoutAnchors (splitLines rule) := by
  rw [seenLine_of_ne h.ne_topAnchor, closedLines_eq_splitLines hreturn]

include hheading hreturn

/-- No line of a lasting rule line is a heading. -/
theorem LastingRule.isHeadingLine_eq_false (h : LastingRule rule)
    (hline : line ∈ closedLines rule) : isHeadingLine line = false := by
  rw [closedLines_eq_splitLines hreturn] at hline
  cases h with
  | single hone _ _ =>
    rw [splitLines_of_not_mem hone] at hline
    rwa [List.mem_singleton.mp hline]
  | links _ hlinks _ =>
    by_cases hanchor : line = topAnchor
    · rw [hanchor]
      decide
    · rcases hlinks line (List.mem_filter.mpr ⟨hline, by simpa using hanchor⟩) with hblank | hfooter
      · exact isHeadingLine_eq_false_of_isBlank hblank
      · exact isHeadingLine_eq_false_of_isFooterLine hfooter

omit hheading in
/-- No line that is seen of a lasting rule line mentions a marker. -/
theorem LastingRule.isMarkerLine_eq_false (h : LastingRule rule) (hline : line ∈ seenLine rule) :
    isMarkerLine line = false := by
  rw [h.seenLine_eq hreturn] at hline
  cases h with
  | single hone _ hmarker =>
    rw [splitLines_of_not_mem hone] at hline
    rwa [List.mem_singleton.mp (mem_withoutAnchors hline)]
  | links _ hlinks _ =>
    rcases hlinks line hline with hblank | hfooter
    · exact isMarkerLine_eq_false_of_isBlank hblank
    · exact isMarkerLine_eq_false_of_isFooterLine hfooter

/-- A lasting rule line goes as a whole with the link above it, and no other line is taken for it
then. -/
theorem LastingRule.exists_readsBack (h : LastingRule rule) (hblank : isBlank rule = false) :
    ∃ ruled, ReadsBack rule ruled seenLine ∧
      ∀ line, '\n' ∉ line → (!ruled && isMarkLine rule line) = false := by
  have hempty : seenLine [] = [[]] := rfl
  have hlink : seenLine backToTop = [backToTop] := seenLine_of_clean cleanLine_backToTop
  have hseen := h.seenLine_eq hreturn
  have hplain : ∀ line ∈ seenLine rule, isHeadingLine line = false := by
    rw [seenLine_of_ne h.ne_topAnchor]
    exact fun line hline => h.isHeadingLine_eq_false hheading hreturn (mem_withoutAnchors hline)
  cases h with
  | single hone hanchor _ =>
    have hself : seenLine rule = [rule] := seenLine_of_clean ⟨hone, hreturn⟩
    refine ⟨true, ⟨hempty, hlink, ?_, hplain, ?_, rfl⟩, fun _ _ => rfl⟩
    · rw [hself]
      exact List.cons_ne_nil _ _
    · rw [hself]
      exact (readsBack_singleton hheading hblank).reach
  | links hfeed hlinks hlast =>
    -- A rule with a line break is no line of a note, and is read back as footer links.
    have hmark : ∀ line, '\n' ∉ line → (!false && isMarkLine rule line) = false :=
      fun _ hline => isMarkLine_eq_false_of_newline hfeed hline
    refine ⟨false, ⟨hempty, hlink, ?_, hplain, ?_, hmark _ (by decide)⟩, hmark⟩
    · rw [hseen]
      intro hnone
      rw [hnone] at hlast
      cases hlast
    · rw [hseen]
      refine unitReach_of_links (fun line hline => ?_) hlinks hlast
      exact isMarkLine_eq_false_of_newline hfeed
        (not_mem_of_mem_splitLines (mem_withoutAnchors hline))

end Waymark
