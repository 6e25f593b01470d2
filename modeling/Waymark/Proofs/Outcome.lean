import Waymark.Proofs.Headings
import Waymark.Proofs.Idempotence

/-!
# What comes out tells what went in

A note that comes out with its lines as they were, but for a block of them that holds no headings,
has the shape that the stages bring about. The headings are all there, so no title was made; the
first start marker stands behind the title, the anchor and their empty lines; and the lines above
the title come out with as many titles as they had, so they are the lines that stood there.

## Main results

* `outline_arrangeLines_of_clean` — all headings come through where none mentions a start marker
* `front_of_arrangeLines` — the first start marker that comes out opens the table of contents
* `exists_anchoredAt_of_arrangeLines` — a note that comes out so is anchored
-/

namespace Waymark

variable {lines front block block' back above below : Buffer} {line title rule : Line}
variable {name text : List Char} {options : Options} {levels : List Nat}

/-! ### Headings and titles -/

theorem titleCount_eq_countP (lines : Buffer) :
    titleCount lines = lines.countP fun line => (titleOfLine? line).isSome := by
  induction lines with
  | nil => rfl
  | cons line lines ih =>
    have hsplit : titleCount (line :: lines) = titleCount [line] + titleCount lines :=
      titleCount_append [line] lines
    have hone : titleCount [line] = if (titleOfLine? line).isSome then 1 else 0 := by
      cases htitle : titleOfLine? line with
      | none => exact titleCount_eq_zero_iff.mpr (by simp [htitle])
      | some text =>
        rw [titleCount, outline_singleton, titleOfLine?_eq_some_iff.mp htitle]
        rfl
    rw [hsplit, hone, ih, List.countP_cons, Nat.add_comm]

/-- The stages up to the anchor write no heading that mentions a start marker. -/
theorem isStartMarker_eq_false_of_mem_arrangeTop (hpercent : '%' ∉ name) (hangle : '<' ∉ name)
    (hlines : ∀ line ∈ lines, isHeadingLine line = true → isStartMarker line = false)
    (h : line ∈ (arrangeTop lines name options).1) (hhead : isHeadingLine line = true) :
    isStartMarker line = false := by
  rcases mem_arrangeTop h with h | h
  · exact hlines line h hhead
  · exact (isMarkerLine_eq_false_iff.mp (isMarkerLine_eq_false_of_mem_topLines hpercent hangle h)).1

/-- The stages after the anchor write no heading and leave none that mentions a start marker. -/
theorem isStartMarker_eq_false_of_mem_arrangeLines (h : line ∈ arrangeLines lines name options)
    (hhead : isHeadingLine line = true) : isStartMarker line = false := by
  rw [arrangeLines_eq] at h
  rcases mem_renewFooters h with h | rfl | rfl | rfl
  · rcases mem_ensureToc h with h | h
    · exact isStartMarker_eq_false_of_mem_withoutToc h
    · rcases List.mem_append.mp h with h | h
      · rw [isHeadingLine_eq_false_of_mem_tocListing h] at hhead
        cases hhead
      · rw [List.mem_singleton.mp h] at hhead
        cases hhead
  · cases hhead
  · rw [isHeadingLine_backToTop] at hhead
    cases hhead
  · rw [isHeadingLine_ruleLine] at hhead
    cases hhead

/-- Where no heading mentions a start marker, all headings of the stages up to the anchor come
through. -/
theorem outline_arrangeLines_of_clean (hrule : (ruleLine options.rule).head? ≠ some '#')
    (hclean : ∀ line ∈ (arrangeTop lines name options).1,
      isHeadingLine line = true → isStartMarker line = false) :
    outline (arrangeLines lines name options) = outline (arrangeTop lines name options).1 := by
  rw [arrangeLines_eq, outline_renewFooters (isHeadingLine_ruleLine _) fun _ =>
      isMarkLine_eq_false_of_isHeadingLine hrule (ruleLine_ne_nil _),
    listedLines, outline_ensureToc, outline_withoutToc_eq_iff]
  exact hclean

/-- The lines that the stages write above the title have as many titles as before. -/
theorem outline_settledAbove (hrule : PlainRule rule) (hheading : isHeadingLine rule = false)
    (hne : rule ≠ []) (levels : List Nat)
    (hclean : ∀ line ∈ above, isHeadingLine line = true → isStartMarker line = false) :
    outline (settledAbove levels rule above) = outline above := by
  rw [settledAbove, outline_renewFooters hheading fun _ =>
      isMarkLine_eq_false_of_isHeadingLine hrule.noHash hne,
    outline_withoutToc_eq_iff.mpr fun line hline => hclean line (mem_withoutAnchors hline),
    outline_withoutAnchors]

theorem countP_titleOfLine?_settledAbove (hrule : PlainRule rule)
    (hheading : isHeadingLine rule = false) (hne : rule ≠ []) (levels : List Nat)
    (hclean : ∀ line ∈ above, isHeadingLine line = true → isStartMarker line = false) :
    (settledAbove levels rule above).countP (fun line => (titleOfLine? line).isSome) =
      above.countP fun line => (titleOfLine? line).isSome := by
  rw [← titleCount_eq_countP, ← titleCount_eq_countP, titleCount, titleCount,
    outline_settledAbove hrule hheading hne levels hclean]

/-- A note in which a title is made comes out with one heading more. -/
theorem Entitled.found_of_outline (hname : '\n' ∉ name)
    (hcut : Entitled (titleStart lines options.createFrontmatter).1
      (titleStart lines options.createFrontmatter).2 name options.prettifyTitle above title below)
    (houtline : outline (arrangeTop lines name options).1 = outline lines) :
    (titleStart lines options.createFrontmatter).1 = above ++ title :: below ∧
      (titleStart lines options.createFrontmatter).2 ≤ above.length ∧
      ∀ line ∈ above.drop (titleStart lines options.createFrontmatter).2,
        titleOfLine? line = none := by
  have htop := outline_arrangeTop lines hname options
  obtain ⟨-, hdrop⟩ := outline_titleStart lines options.createFrontmatter
  generalize titleStart lines options.createFrontmatter = cut at hcut hdrop ⊢
  cases hcut with
  | found hlines hstart hfirst _ => exact ⟨hlines, hstart, hfirst⟩
  | made hnone =>
    have hzero : titleCount (lines.drop (belowFrontmatter lines)) = 0 := by
      rw [titleCount, ← hdrop]
      exact titleCount_eq_zero_iff.mpr hnone
    rw [if_pos hzero, houtline] at htop
    obtain ⟨text, htext⟩ := htop
    -- A title that was made would be one heading more.
    have hlength := congrArg List.length htext
    conv at hlength => lhs; rw [← List.take_append_drop (belowFrontmatter lines) lines]
    rw [outline_append, List.length_append, List.length_append, List.length_cons] at hlength
    omega

/-- No frontmatter block was made for a note that starts as the lines above its title come out. -/
theorem titleStart_fst_eq_self {create pretty : Bool} (hcut : Entitled (titleStart lines create).1
      (titleStart lines create).2 name pretty above title below)
    (hstarts : settledAbove levels rule above <+: lines) : (titleStart lines create).1 = lines := by
  cases hfind : findFrontmatter lines with
  | some span => rw [titleStart, ensureFrontmatter, hfind]
  | none =>
    cases create with
    | false => rw [titleStart_of_none hfind]
    | true =>
      rw [titleStart_of_create hfind] at hcut
      -- The two fences of a new block would come out first, and so be there already.
      have hcut' : Entitled ([fenceLine, fenceLine] ++ [] :: lines) [fenceLine, fenceLine].length
        name pretty above title below := hcut
      obtain ⟨middle, rfl, -⟩ := hcut'.exists_above
      have hfences : ∀ line ∈ withoutAnchors [fenceLine, fenceLine],
          isHeadingLine line = false ∧ isMarkerLine line = false := by decide
      have hkept : withoutAnchors [fenceLine, fenceLine] = [fenceLine, fenceLine] := by decide
      rw [settledAbove_append hfences, hkept] at hstarts
      obtain ⟨rest, rfl⟩ := hstarts
      rw [List.append_assoc] at hfind
      obtain ⟨span, hspan, -⟩ := endsFrontmatter_fences.findFrontmatter_append
        (settledAbove levels rule middle ++ rest)
      rw [hspan] at hfind
      cases hfind

/-- No start marker is left where blocks are taken out and footers renewed. -/
theorem isStartMarker_eq_false_of_mem_cleared {opened : List Nat} {endsBlank : Bool}
    (hrule : isStartMarker rule = false)
    (h : line ∈ renewFooters levels rule opened endsBlank (withoutToc lines)) :
    isStartMarker line = false :=
  forall_mem_renewFooters (by decide) (by decide) hrule
    (fun _ => isStartMarker_eq_false_of_mem_withoutToc) line h

/-- Where nothing is listed, no start marker is left. -/
theorem isStartMarker_eq_false_of_mem_unlisted {tail : Buffer} {opened : List Nat}
    (hrule : isStartMarker rule = false) (hmark : isStartMarker title = false)
    (h : line ∈ settledAbove levels rule above ++ title :: [] :: topAnchor ::
      renewFooters levels rule opened false (withoutToc tail)) : isStartMarker line = false := by
  rcases List.mem_append.mp h with h | h
  · exact isStartMarker_eq_false_of_mem_cleared hrule h
  · rcases List.mem_cons.mp h with rfl | h
    · exact hmark
    · rcases List.mem_cons.mp h with rfl | h
      · rfl
      · rcases List.mem_cons.mp h with rfl | h
        · decide
        · exact isStartMarker_eq_false_of_mem_cleared hrule h

/-- The first start marker of an arranged buffer opens its table of contents, right below the title
and the anchor. -/
theorem front_of_arrangeLines {tail more : Buffer} {first : Line}
    (hrule : PlainRule (ruleLine options.rule)) (htop : arrangeTop lines name options =
      (withoutAnchors above ++ title :: [] :: topAnchor :: tail, (withoutAnchors above).length + 2))
    (htitle : headingOfLine? title = some (1, text)) (hmark : isStartMarker title = false)
    (hgap : ∀ line ∈ tail.head?, line = []) (htail : topAnchor ∉ tail)
    (hout : arrangeLines lines name options = front ++ first :: more)
    (hfront : ∀ line ∈ front, isStartMarker line = false) (hfirst : isStartMarker first = true) :
    front = settledAbove options.footerLevels (ruleLine options.rule) above ++
        [title, [], topAnchor, []] ∧
      hasSections (headings (arrangeTop lines name options).1)
        (effectiveDepth options.maxDepth) = true ∧ topAnchor ∉ first :: more := by
  have hruleStart := (isMarkerLine_eq_false_iff.mp hrule.noMarker).1
  obtain ⟨tail', heq, hcases⟩ := exists_arrangeLines_of_arrangeTop htop htitle hmark hgap
  rw [hout] at heq
  rcases hcases with ⟨-, rfl⟩ | ⟨hsections, after, rfl, -, -, hsource⟩
  · have hmem : first ∈ front ++ first :: more := by simp
    rw [heq] at hmem
    rw [isStartMarker_eq_false_of_mem_unlisted hruleStart hmark hmem] at hfirst
    cases hfirst
  · have hempty : isHeadingLine ([] : Line) = false ∧ isFooterLine [] = false := by decide
    obtain ⟨first', rest, hlisting, hfirst'⟩ :=
      exists_tocListing_eq_cons (arrangeTop lines name options).1 options.maxDepth
    have hanchored : ∀ line ∈ [title, [], topAnchor, []], isStartMarker line = false :=
      List.forall_mem_cons.mpr ⟨hmark, by decide⟩
    have hafter : topAnchor ∉ renewFooters options.footerLevels (ruleLine options.rule)
        (baseOpened options.footerLevels) false
        ([] :: (tocListing (arrangeTop lines name options).1 options.maxDepth ++ after)) :=
      topAnchor_not_mem_renewFooters hrule.noAnchor (topAnchor_not_mem_listing htail hsource)
    rw [renewFooters_cons_of_plain hempty.1 hempty.2, renewFooters_tocListing,
      hlisting] at heq hafter
    have hparts : front ++ first :: more =
        (settledAbove options.footerLevels (ruleLine options.rule) above ++
          [title, [], topAnchor, []]) ++
          first' :: (rest ++ renewFooters options.footerLevels (ruleLine options.rule)
            (baseOpened options.footerLevels) false after) := by
      rw [heq]
      simp
    -- Both sides are cut at their first start marker.
    obtain ⟨hfrontEq, rfl, hmore⟩ := eq_of_first isStartMarker hparts hfirst hfirst' hfront
      (List.forall_mem_append.mpr
        ⟨fun _ => isStartMarker_eq_false_of_mem_cleared hruleStart, hanchored⟩)
    rw [hmore]
    exact ⟨hfrontEq, hsections, fun hmem => hafter (List.mem_cons_of_mem _ hmem)⟩

section

variable (hrule : PlainRule (ruleLine options.rule)) (hname : PlainName name)
  (hlines : lines = front ++ block' ++ back)
  (hfix : arrangeLines lines name options = front ++ block ++ back)
  (hblock : ∀ line ∈ block, isHeadingLine line = false)
  (hblock' : ∀ line ∈ block', isHeadingLine line = false)
include hrule hname hlines hfix hblock hblock'

/-- In a note that comes out with the same lines around a block, no heading mentions a start
marker, and no title is made. -/
theorem clean_of_arrangeLines :
    (∀ line ∈ lines, isHeadingLine line = true → isStartMarker line = false) ∧
      (∀ line ∈ (arrangeTop lines name options).1,
        isHeadingLine line = true → isStartMarker line = false) ∧
      outline (arrangeTop lines name options).1 = outline lines := by
  have hlinesClean : ∀ line ∈ lines, isHeadingLine line = true → isStartMarker line = false := by
    intro line hline hhead
    -- The block holds no headings, so a heading of the note is one of the lines that come out.
    have hmem : line ∈ front ++ block ++ back := by
      rw [hlines, List.mem_append, List.mem_append] at hline
      rcases hline with (hline | hline) | hline
      · simp [hline]
      · rw [hblock' line hline] at hhead
        cases hhead
      · simp [hline]
    rw [← hfix] at hmem
    exact isStartMarker_eq_false_of_mem_arrangeLines hmem hhead
  have hclean : ∀ line ∈ (arrangeTop lines name options).1,
      isHeadingLine line = true → isStartMarker line = false := fun _ =>
    isStartMarker_eq_false_of_mem_arrangeTop hname.2.2.1 hname.2.2.2 hlinesClean
  refine ⟨hlinesClean, hclean, ?_⟩
  rw [← outline_arrangeLines_of_clean hrule.noHash hclean, hfix, hlines]
  simp only [outline_append, outline_eq_nil hblock, outline_eq_nil hblock']

/-- A note that comes out with the same lines around a block is anchored, and the block stands where
the table of contents belongs. -/
theorem exists_anchoredAt_of_arrangeLines (hfront : ∀ line ∈ front, isStartMarker line = false)
    (hfirst : ∃ line rest, block = line :: rest ∧ isStartMarker line = true)
    (hanchor : topAnchor ∈ block' → topAnchor ∈ block) :
    ∃ above title, front = above ++ [title, [], topAnchor, []] ∧ isStartMarker title = false ∧
      topAnchor ∉ block ++ back ∧
      hasSections (headings lines) (effectiveDepth options.maxDepth) = true ∧
      AnchoredAt lines options.createFrontmatter above title ([] :: (block' ++ back)) := by
  obtain ⟨hlinesClean, hclean, houtline⟩ :=
    clean_of_arrangeLines hrule hname hlines hfix hblock hblock'
  obtain ⟨above, title, below, hcut, htop⟩ := arrangeTop_eq lines name options
  obtain ⟨text, htext⟩ := hcut.headingOfLine?_title hname.2.1
  have hmark : isStartMarker title = false :=
    hclean title (by simp [htop]) (isHeadingLine_iff.mpr ⟨_, _, htext⟩)
  obtain ⟨hlisted, hstart, hsearch⟩ := hcut.found_of_outline hname.2.1 houtline
  obtain ⟨first, rest, rfl, hmarker⟩ := hfirst
  have hout : arrangeLines lines name options = front ++ first :: (rest ++ back) := by
    rw [hfix, List.append_assoc, List.cons_append]
  obtain ⟨hfrontEq, hsections, hbelow⟩ := front_of_arrangeLines hrule htop htext hmark
    (head?_ensureEmptyAt _) (topAnchor_not_mem_ensureEmptyAt _) hout hfront hmarker
  have hstarts : settledAbove options.footerLevels (ruleLine options.rule) above <+: lines := by
    rw [hlines, hfrontEq, List.append_assoc, List.append_assoc]
    exact List.prefix_append _ _
  have hself := titleStart_fst_eq_self hcut hstarts
  rw [hself] at hlisted
  have hparts : lines = settledAbove options.footerLevels (ruleLine options.rule) above ++
      title :: [] :: topAnchor :: [] :: (block' ++ back) := by
    rw [hlines, hfrontEq]
    simp
  have htitle : (titleOfLine? title).isSome = true := by
    rw [titleOfLine?_eq_some_iff.mpr htext]
    rfl
  have hcount := countP_titleOfLine?_settledAbove hrule (isHeadingLine_ruleLine _)
    (ruleLine_ne_nil _) options.footerLevels fun line hline =>
      hlinesClean line (hlisted ▸ List.mem_append_left _ hline)
  -- Both cuts are at a title with as many titles above it, so they are the same cut.
  obtain ⟨habove, -, -⟩ := eq_of_countP _ (hlisted.symm.trans hparts) htitle htitle hcount.symm
  have hnone := topAnchor_not_mem_settledAbove hrule.noAnchor options.footerLevels above
  rw [← habove] at hfrontEq hparts hnone
  have hnoneBelow : topAnchor ∉ [] :: (block' ++ back) := by
    intro hmem
    rcases List.mem_cons.mp hmem with hmem | hmem
    · revert hmem
      decide
    · rcases List.mem_append.mp hmem with hmem | hmem
      · exact hbelow (List.mem_append_left _ (hanchor hmem))
      · exact hbelow (by simp [hmem])
  refine ⟨above, title, hfrontEq, hmark, hbelow, ?_, hparts, ⟨text, htext⟩,
    ⟨_, Prod.ext hself rfl, hstart, hsearch⟩, hnone, hnoneBelow, by simp⟩
  rw [← hasSections_congr houtline]
  exact hsections

end

end Waymark
