import Waymark.Proofs.Headings
import Waymark.Proofs.Idempotence
import Waymark.Proofs.Order

/-!
# What the user wrote

A line that is no blank, no anchor and no part of a footer is the user's. In a buffer without
markers, all stages together keep these lines as they are, in their order and number. What they
add has three places: fences on top, a title below the frontmatter, and a table of contents below
the title. So the user's lines of the arranged buffer are those of the buffer with these parts put
in, and nothing else.

## Main definitions

* `isUserContent` — a line that is no blank, no anchor and no part of a footer
* `titleEnd` — how many lines stand through the title, or where one would be made
* `newFences`, `newTitle`, `newToc` — the lines that a note lacks
* `withNewParts` — a buffer with these lines put in

## Main results

* `exists_arrangeTop_eq` — what the stages up to the anchor leave, above and below the title
* `filter_listedLines` — a table of contents is put in below the title where there is no marker
* `filter_arrangeLines_of_unmarked` — the user's lines come out as they were
-/

namespace Waymark

/-- The line is no blank, no anchor, no footer, and no rule line of the footers. -/
def isUserContent (rule line : Line) : Bool :=
  !isBlank line && line != topAnchor && !isFooterLine line && !isMarkLine rule line

/-- How many lines a buffer has through its title, or, if it has none, through its frontmatter. -/
def titleEnd (lines : Buffer) : Nat :=
  match findTitle lines (belowFrontmatter lines) with
  | some (index, _) => index + 1
  | none => belowFrontmatter lines

/-- The fences that are put on top, if there is no frontmatter and it is asked for. -/
def newFences (lines : Buffer) (options : Options) : List Line :=
  if findFrontmatter lines = none ∧ options.createFrontmatter = true then [fenceLine, fenceLine]
  else []

/-- The title that is made, if none stands below the frontmatter. -/
def newTitle (lines : Buffer) (name : List Char) (options : Options) : List Line :=
  if findTitle lines (belowFrontmatter lines) = none then
    [titleLine (titleOfName name options.prettifyTitle)]
  else []

/-- The table of contents, if the buffer has sections to list. -/
def newToc (lines : Buffer) (options : Options) : List Line :=
  if hasSections (headings lines) (effectiveDepth options.maxDepth) then
    tocListing lines options.maxDepth
  else []

/-- The buffer with the parts that it lacks: fences on top, and a title and the table of contents
below the frontmatter and the title that is there. -/
def withNewParts (lines : Buffer) (name : List Char) (options : Options) : Buffer :=
  newFences lines options ++ lines.take (titleEnd lines) ++ newTitle lines name options ++
    newToc lines options ++ lines.drop (titleEnd lines)

variable {lines above below front back gap rest : Buffer} {line title rule : Line}
variable {test : Line → Bool} {name text : List Char} {options : Options} {start : Nat}
variable {create pretty : Bool}

/-! ### Up to the anchor -/

/-- The search for the title starts below the same lines as in the buffer that is given, new fences
apart; those have an empty line below them. -/
theorem exists_titleStart (lines : Buffer) (options : Options) :
    ∃ gap, (∀ line ∈ gap, line = []) ∧
      (titleStart lines options.createFrontmatter).1.take
        (titleStart lines options.createFrontmatter).2 =
          newFences lines options ++ lines.take (belowFrontmatter lines) ∧
      (titleStart lines options.createFrontmatter).1.drop
        (titleStart lines options.createFrontmatter).2 =
          gap ++ lines.drop (belowFrontmatter lines) := by
  cases hfind : findFrontmatter lines with
  | some span =>
    refine ⟨[], by simp, ?_⟩
    simp [titleStart, ensureFrontmatter, newFences, belowFrontmatter, hfind]
  | none =>
    cases hcreate : options.createFrontmatter with
    | false =>
      refine ⟨[], by simp, ?_⟩
      simp [titleStart_of_none hfind, newFences, belowFrontmatter, hfind, hcreate]
    | true =>
      refine ⟨[[]], by simp, ?_⟩
      simp [titleStart_of_create hfind, newFences, belowFrontmatter, hfind, hcreate]

theorem filter_withoutAnchors (hanchor : test topAnchor = false) :
    (withoutAnchors lines).filter test = lines.filter test := by
  rw [withoutAnchors, List.filter_filter]
  congr 1
  ext line
  by_cases hline : line = topAnchor
  · simp [hline, hanchor]
  · simp [hline]

theorem filter_eq_nil_of_empty (hempty : test [] = false) (hgap : ∀ line ∈ gap, line = []) :
    gap.filter test = [] := by
  rw [List.filter_eq_nil_iff]
  intro line hmem
  rw [hgap line hmem, hempty]
  exact Bool.false_ne_true

/-- The empty line and the anchor below the title do not pass the test. -/
theorem filter_anchored (hempty : test [] = false) (hanchor : test topAnchor = false) :
    (title :: [] :: topAnchor :: rest).filter test = [title].filter test ++ rest.filter test := by
  have hbetween : [[], topAnchor].filter test = [] := by simp [hempty, hanchor]
  rw [← List.singleton_append, List.filter_append]
  congr 1
  exact (List.filter_append [[], topAnchor] rest).trans (by rw [hbetween, List.nil_append])

/-- A line that is not empty stands below a gap that is above it. -/
theorem exists_below_gap (hgap : ∀ line ∈ gap, line = []) (hline : line ≠ [])
    (h : gap ++ rest = above ++ line :: below) :
    ∃ middle, above = gap ++ middle ∧ rest = middle ++ line :: below := by
  rcases List.append_eq_append_iff.mp h with ⟨middle, habove, hrest⟩ | ⟨cut, hcut, hrest⟩
  · exact ⟨middle, habove, hrest⟩
  · cases cut with
    | nil => exact ⟨[], by simpa using hcut.symm, hrest.symm⟩
    | cons first cut =>
      obtain ⟨rfl, -⟩ := List.cons.inj hrest
      exact absurd (hgap line (by simp [hcut])) hline

/-- What stands above and below the title, up to empty lines. -/
theorem Entitled.filter_parts {buffer : Buffer} (hcut : Entitled buffer start name
      options.prettifyTitle above title below) (hempty : test [] = false)
    (hgap : ∀ line ∈ gap, line = [])
    (htake : buffer.take start = front ++ lines.take (belowFrontmatter lines))
    (hdrop : buffer.drop start = gap ++ lines.drop (belowFrontmatter lines)) :
    (above ++ [title]).filter test =
        (front ++ lines.take (titleEnd lines) ++ newTitle lines name options).filter test ∧
      below.filter test = (lines.drop (titleEnd lines)).filter test := by
  have hgapTest : gap.filter test = [] := filter_eq_nil_of_empty hempty hgap
  cases hcut with
  | found hlines hstart hfirst htitle =>
    obtain ⟨text, htext⟩ := Option.isSome_iff_exists.mp htitle
    have htitleNe : title ≠ [] := by
      rintro rfl
      cases htext
    have hcutDrop : gap ++ lines.drop (belowFrontmatter lines) =
        above.drop start ++ title :: below := by
      rw [← hdrop, hlines, List.drop_append_of_le_length hstart]
    -- The gap ends above the title, so the title is the first one of the given lines, too.
    obtain ⟨middle, hmiddle, hrest⟩ := exists_below_gap hgap htitleNe hcutDrop
    have hfound := findTitle_of_drop hrest
      (fun line hline => hfirst line (by simp [hmiddle, hline])) htext
    have hend : titleEnd lines = belowFrontmatter lines + (middle.length + 1) := by
      simp only [titleEnd, hfound, Nat.add_assoc]
    have habove : above = front ++ lines.take (belowFrontmatter lines) ++ gap ++ middle := by
      rw [← htake, hlines, List.take_append_of_le_length hstart, List.append_assoc, ← hmiddle,
        List.take_append_drop]
    have hparts : lines.drop (belowFrontmatter lines) = (middle ++ [title]) ++ below := by
      simpa using hrest
    have hlength : middle.length + 1 = (middle ++ [title]).length := by simp
    constructor
    · rw [habove, hend, List.take_add, hparts, hlength, List.take_left]
      simp [newTitle, hfound, hgapTest]
    · rw [hend, ← List.drop_drop, hparts, hlength, List.drop_left]
  | made hnone =>
    have hnot : findTitle lines (belowFrontmatter lines) = none :=
      findTitleFrom_eq_none_iff.mpr fun line hline => hnone line (by simp [hdrop, hline])
    have hend : titleEnd lines = belowFrontmatter lines := by
      simp only [titleEnd, hnot]
    constructor
    · simp [hend, htake, newTitle, hnot, hempty]
    · rw [hend, List.filter_cons_of_neg (by simp [hempty]), filter_belowGap hempty, hdrop,
        List.filter_append, hgapTest, List.nil_append]

/-- What the stages up to the anchor leave: above the anchor all lines through the title, with the
new fences and the new title, and below it the others, up to empty lines and other anchors. -/
theorem exists_arrangeTop_eq (lines : Buffer) (options : Options) (hname : '\n' ∉ name) :
    ∃ above title tail, arrangeTop lines name options =
        (above ++ title :: [] :: topAnchor :: tail, above.length + 2) ∧
      isHeadingLine title = true ∧ (∀ line ∈ tail.head?, line = []) ∧
      ∀ test : Line → Bool, test [] = false → test topAnchor = false →
        (above ++ [title]).filter test = (newFences lines options ++ lines.take (titleEnd lines) ++
          newTitle lines name options).filter test ∧
        tail.filter test = (lines.drop (titleEnd lines)).filter test := by
  obtain ⟨gap, hgap, htake, hdrop⟩ := exists_titleStart lines options
  obtain ⟨above, title, below, hcut, htop⟩ := arrangeTop_eq lines name options
  obtain ⟨text, htext⟩ := hcut.headingOfLine?_title hname
  refine ⟨_, _, _, htop, isHeadingLine_iff.mpr ⟨1, text, htext⟩, head?_ensureEmptyAt _, ?_⟩
  intro test hempty hanchor
  obtain ⟨habove, hbelow⟩ := hcut.filter_parts hempty hgap htake hdrop
  rw [← habove, ← hbelow, List.filter_append, List.filter_append, filter_withoutAnchors hanchor,
    filter_ensureEmptyAt_zero hempty, filter_withoutAnchors hanchor, filter_belowGap hempty]
  exact ⟨rfl, rfl⟩

/-! ### The table of contents -/

/-- The headings that a table of contents may list are those of the buffer that is given: no stage
up to the anchor writes any but a title. -/
theorem filter_outline_arrangeTop (lines : Buffer) (options : Options) (hname : '\n' ∉ name) :
    (outline (arrangeTop lines name options).1).filter (fun head => decide (2 ≤ head.1)) =
      (outline lines).filter fun head => decide (2 ≤ head.1) := by
  have htop := outline_arrangeTop lines hname options
  split at htop
  · obtain ⟨title, htop⟩ := htop
    conv => rhs; rw [← List.take_append_drop (belowFrontmatter lines) lines, outline_append]
    rw [htop, List.filter_append, List.filter_append, List.filter_cons_of_neg (by simp)]
  · rw [htop]

theorem hasSections_arrangeTop (lines : Buffer) (options : Options) (hname : '\n' ∉ name)
    (depth : Nat) : hasSections (headings (arrangeTop lines name options).1) depth =
      hasSections (headings lines) depth := by
  have hdeep : ∀ heads : List (Nat × List Char),
      (heads.any fun pair => decide (2 ≤ pair.1) && decide (pair.1 ≤ depth)) =
        (heads.filter fun pair => decide (2 ≤ pair.1)).any fun pair => decide (pair.1 ≤ depth) :=
    fun heads => List.any_filter.symm
  rw [hasSections_eq, hasSections_eq, hdeep, hdeep, filter_outline_arrangeTop lines options hname]

theorem tocListing_arrangeTop (lines : Buffer) (options : Options) (hname : '\n' ∉ name)
    (depth : Nat) :
    tocListing (arrangeTop lines name options).1 depth = tocListing lines depth := by
  have hdeep : ∀ heads : List (Nat × List Char), (heads.filter fun pair =>
      decide (2 ≤ pair.1) && decide (pair.1 ≤ effectiveDepth depth)) =
        (heads.filter fun pair => decide (2 ≤ pair.1)).filter
          fun pair => decide (pair.1 ≤ effectiveDepth depth) := by
    intro heads
    rw [List.filter_filter]
    simp only [Bool.and_comm]
  simp only [tocListing, tocEntries_eq, hdeep, filter_outline_arrangeTop lines options hname]

/-- A buffer without a start marker has no table of contents to be left alone. -/
theorem isTocCurrent_eq_false (hstart : ∀ line ∈ lines, isStartMarker line = false)
    (place depth : Nat) : isTocCurrent lines place depth = false := by
  cases hcurrent : isTocCurrent lines place depth with
  | false => rfl
  | true =>
    obtain ⟨front, back, hlines, -⟩ := exists_of_isTocCurrent hcurrent
    obtain ⟨first, rest, hlisting, hfirst⟩ := exists_tocListing_eq_cons lines depth
    have hmem : first ∈ front ++ tocListing lines depth ++ back := by simp [hlisting]
    rw [hstart first (hlines ▸ hmem)] at hfirst
    cases hfirst

/-- Where there is no marker, the table of contents is put in below the title and nothing else
changes but empty lines and anchors. -/
theorem filter_listedLines (options : Options) (hname : '\n' ∉ name) (hpercent : '%' ∉ name)
    (hangle : '<' ∉ name)
    (hmarkers : ∀ line ∈ lines, isStartMarker line = false ∧ isBareEndMarker line = false)
    (hempty : test [] = false) (hanchor : test topAnchor = false) :
    (listedLines lines name options).filter test =
      (withNewParts lines name options).filter test := by
  obtain ⟨above, title, tail, htop, htitle, hgap, hparts⟩ :=
    exists_arrangeTop_eq lines options hname
  obtain ⟨habove, htail⟩ := hparts test hempty hanchor
  have hclean : ∀ line ∈ above ++ title :: [] :: topAnchor :: tail,
      isStartMarker line = false ∧ isBareEndMarker line = false := by
    intro line hline
    have hmem : line ∈ (arrangeTop lines name options).1 := by rwa [htop]
    rcases mem_arrangeTop hmem with hline | hline
    · exact hmarkers line hline
    · exact not_marker_parts (isMarkerLine_eq_false_of_mem_topLines hpercent hangle hline)
  have hself : ∀ part : Buffer, part ⊆ above ++ title :: [] :: topAnchor :: tail →
      withoutToc part = part := fun part hpart =>
    withoutToc_eq_self (fun line hline => (hclean line (hpart hline)).1)
      fun line hline => (hclean line (hpart hline)).2
  have hsections := hasSections_arrangeTop lines options hname (effectiveDepth options.maxDepth)
  have hlisting := tocListing_arrangeTop lines options hname options.maxDepth
  rw [htop] at hsections hlisting
  -- The table of contents is put in below the empty line that stands below the anchor.
  have hgapTest : tail.tail.filter test = tail.filter test := by
    cases tail with
    | nil => rfl
    | cons first tail =>
      rw [hgap first rfl, List.filter_cons_of_neg (by simp [hempty]), List.tail_cons]
  rw [listedLines, htop, withNewParts]
  cases hlisted : hasSections (headings lines) (effectiveDepth options.maxDepth) with
  | false =>
    have hnone : newToc lines options = [] := by simp [newToc, hlisted]
    rw [ensureToc_of_not_hasSections (hsections.trans hlisted), hself _ (List.Subset.refl _), hnone,
      List.append_nil, List.filter_append _ (lines.drop _), ← habove, ← htail, List.filter_append,
      filter_anchored hempty hanchor, List.filter_append, List.append_assoc]
  | true =>
    have htoc : newToc lines options = tocListing lines options.maxDepth := by
      simp [newToc, hlisted]
    have hstale := isTocCurrent_eq_false (fun line hline => (hclean line hline).1)
      (above.length + 2 + 2) options.maxDepth
    rw [ensureToc_stale rfl htitle (hclean title (by simp)).1 rfl hgap (hsections.trans hlisted)
      hstale, hself above (by simp),
      hself tail.tail fun line hline => by simp [List.mem_of_mem_tail hline], tocLines, hlisting,
      htoc, List.filter_append _ (lines.drop _), List.filter_append _ (tocListing _ _), ← habove,
      ← htail, ← hgapTest, List.filter_append, filter_anchored hempty hanchor,
      List.filter_append above]
    simp [hempty]

/-! ### The footers -/

theorem isUserContent_nil (rule : Line) : isUserContent rule [] = false := by
  simp [isUserContent, isBlank]

theorem isUserContent_topAnchor (rule : Line) : isUserContent rule topAnchor = false := by
  simp [isUserContent]

theorem isUserContent_eq_false_of_footer
    (h : isBlank line = true ∨ isFooterLine line = true ∨ isMarkLine rule line = true) :
    isUserContent rule line = false := by
  rcases h with h | h | h <;> simp [isUserContent, h]

/-- The stage of the footers takes out and puts in nothing that is the user's. -/
theorem filter_isUserContent_renewFooters (levels opened : List Nat) (rule : Line)
    (endsBlank : Bool) (lines : Buffer) :
    (renewFooters levels rule opened endsBlank lines).filter (isUserContent rule) =
      lines.filter (isUserContent rule) := by
  rw [renewFooters, filter_placeFooters (isUserContent_nil rule)
    (isUserContent_eq_false_of_footer (.inr (.inl (by decide))))
    (isUserContent_eq_false_of_footer (.inr (.inr (isMarkLine_self rule))))]
  exact filter_keptLines (fun line h => isUserContent_eq_false_of_footer (.inl h))
    (fun line h => isUserContent_eq_false_of_footer (.inr (.inr h)))
    fun line h => isUserContent_eq_false_of_footer (.inr (.inl h))

/-- In a buffer without markers, the user's lines come out as they were, with at most three parts
put in: fences on top, a title, and a table of contents below it. -/
theorem filter_arrangeLines_of_unmarked (lines : Buffer) (name : List Char) (options : Options)
    (hname : '\n' ∉ name) (hpercent : '%' ∉ name) (hangle : '<' ∉ name)
    (hmarkers : ∀ line ∈ lines, isStartMarker line = false ∧ isBareEndMarker line = false) :
    (arrangeLines lines name options).filter (isUserContent (ruleLine options.rule)) =
      (withNewParts lines name options).filter (isUserContent (ruleLine options.rule)) := by
  rw [arrangeLines_eq, filter_isUserContent_renewFooters]
  exact filter_listedLines options hname hpercent hangle hmarkers (isUserContent_nil _)
    (isUserContent_topAnchor _)

/-- A note without a title, with an old footer and an anchor between its sections. -/
def noteOfOldFooter : Buffer :=
  ["## A".toList, "one".toList, [], backToTop, [], "***".toList, topAnchor, "## B".toList,
    "two".toList]

theorem filter_arrangeLines_noteOfOldFooter :
    (arrangeLines noteOfOldFooter "note".toList
        { createFrontmatter := true, rule := "***".toList }).filter (isUserContent "***".toList) =
      ["---".toList, "---".toList, "# Note".toList] ++ tocListing noteOfOldFooter 4 ++
        ["## A".toList, "one".toList, "## B".toList, "two".toList] := by
  have hkept := filter_arrangeLines_of_unmarked noteOfOldFooter "note".toList
    { createFrontmatter := true, rule := "***".toList } (by decide) (by decide) (by decide)
    (by decide)
  have hrule : ruleLine "***".toList = "***".toList := by decide
  rw [hrule] at hkept
  rw [hkept]
  decide

end Waymark
