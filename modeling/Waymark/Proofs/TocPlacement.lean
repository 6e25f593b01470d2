import Waymark.Proofs.AnchorPlacement
import Waymark.Proofs.Outcome

/-!
# Where the table of contents stands

The table of contents is written before the footers are renewed and reads the headings of a
buffer that still holds the old tables. Yet it describes the buffer that comes out: no stage
after it adds or takes a heading. It is the one block of that buffer, however many start and
end markers the note had, since all lines around it are quiet: they open no block, and only
a heading among them, which no block reaches over, may mention an end marker.

## Main definitions

* `IsQuiet` — a line that no block starts at and none runs through
* `IsListed` — a buffer with its one table of contents in place, or with none to write

## Main results

* `isQuiet_of_mem_withoutToc` — what is left when the tables of contents are out
* `isListed_of_quiet`, `isListed_of_parts` — buffers without and with a table of contents
* `isListed_arrangeLines` — the table of contents of an arranged buffer
-/

namespace Waymark

/-- No block opens at the line and none ends there: it mentions no start marker, and it mentions
an end marker only if it is a heading. -/
def IsQuiet (line : Line) : Prop :=
  isStartMarker line = false ∧ (isHeadingLine line = false → isEndMarker line = false)

/-- Line `index` is the one anchor of the buffer. If a heading down to level `depth` is to be
listed, the one block of the buffer stands two lines below and reads as its table of contents,
and else there is no block. -/
structure IsListed (lines : Buffer) (depth index : Nat) : Prop where
  /-- No other line is an anchor. -/
  anchor : ∀ i, lines[i]? = some topAnchor ↔ i = index
  /-- The table of contents is the one block, at its place, and is current. -/
  listed : hasSections (headings lines) depth = true → ∃ block, tocBlocks lines = [block] ∧
    block.first = index + 2 ∧ lines.linesOf block = (tocLines lines depth).dropLast
  /-- Where nothing is to be listed there is no block. -/
  unlisted : hasSections (headings lines) depth = false → tocBlocks lines = []
  /-- No bare end marker stands outside the block. -/
  noOrphan : ∀ line i, lines[i]? = some line → isBareEndMarker line = true →
    ∃ block ∈ tocBlocks lines, block.contains i = true

variable {lines above tail after : Buffer} {line title rule : Line} {depth index : Nat}
variable {name text : List Char} {options : Options} {levels opened : List Nat} {endsBlank : Bool}

/-! ### Quiet lines -/

theorem isQuiet_of_isMarkerLine (h : isMarkerLine line = false) : IsQuiet line :=
  (isMarkerLine_eq_false_iff.mp h).imp_right fun hend _ => hend

theorem IsQuiet.isBareEndMarker_eq_false (h : IsQuiet line) : isBareEndMarker line = false := by
  by_contra hbare
  rw [Bool.not_eq_false] at hbare
  have hend := h.2 (isHeadingLine_eq_false_of_isBareEndMarker hbare)
  rw [isEndMarker_of_isBareEndMarker hbare] at hend
  cases hend

/-- Where end markers stand alone or in headings, only quiet lines are left when the tables of
contents are out. -/
theorem isQuiet_of_mem_withoutToc
    (hends : ∀ line ∈ lines, isHeadingLine line = false → isEndMarker line = true →
      isBareEndMarker line = true)
    (h : line ∈ withoutToc lines) : IsQuiet line := by
  refine ⟨isStartMarker_eq_false_of_mem_withoutToc h, fun hhead => ?_⟩
  by_contra hend
  have hbare := hends line ((withoutToc_sublist _).subset h) hhead (by simpa using hend)
  rw [isBareEndMarker_eq_false_of_mem_withoutToc h] at hbare
  cases hbare

theorem forall_isQuiet_renewFooters (hrule : isMarkerLine rule = false)
    (h : ∀ line ∈ lines, IsQuiet line) :
    ∀ line ∈ renewFooters levels rule opened endsBlank lines, IsQuiet line :=
  forall_mem_renewFooters (isQuiet_of_isMarkerLine (by decide))
    (isQuiet_of_isMarkerLine (by decide)) (isQuiet_of_isMarkerLine hrule) h

/-- A title and the lines around an anchor are quiet. -/
theorem forall_isQuiet_anchor (hheading : isHeadingLine title = true)
    (hmark : isStartMarker title = false) : ∀ line ∈ [title, [], topAnchor, []], IsQuiet line := by
  have hplain : ∀ line ∈ ([[], topAnchor, []] : Buffer), isMarkerLine line = false := by decide
  refine List.forall_mem_cons.mpr ⟨⟨hmark, fun h => ?_⟩,
    fun line hline => isQuiet_of_isMarkerLine (hplain line hline)⟩
  rw [hheading] at h
  cases h

/-- A buffer of quiet lines has no block. -/
theorem tocBlocks_eq_nil_of_quiet (h : ∀ line ∈ lines, IsQuiet line) : tocBlocks lines = [] :=
  tocBlocksFrom_eq_nil fun line hline => (h line hline).1

/-! ### Buffers without and with a table of contents -/

/-- A buffer of quiet lines with nothing to list is in order. -/
theorem isListed_of_quiet (hsections : hasSections (headings lines) depth = false)
    (hanchor : ∀ i, lines[i]? = some topAnchor ↔ i = index)
    (hquiet : ∀ line ∈ lines, IsQuiet line) :
    IsListed lines depth index where
  anchor := hanchor
  listed h := by
    rw [hsections] at h
    cases h
  unlisted _ := tocBlocks_eq_nil_of_quiet hquiet
  noOrphan line i hline hbare := by
    rw [(hquiet line (List.mem_of_getElem? hline)).isBareEndMarker_eq_false] at hbare
    cases hbare

/-- So is one with its table of contents two lines below the anchor, and quiet lines around it. -/
theorem isListed_of_parts (hsections : hasSections (headings lines) depth = true)
    (hanchor : ∀ i, lines[i]? = some topAnchor ↔ i = above.length + 2)
    (hlines : lines = above ++ [title, [], topAnchor, []] ++ tocListing lines depth ++ after)
    (htitle : isStartMarker title = false) (hheading : isHeadingLine title = true)
    (habove : ∀ line ∈ above, IsQuiet line) (hafter : ∀ line ∈ after, IsQuiet line) :
    IsListed lines depth (above.length + 2) := by
  have hfront : ∀ line ∈ above ++ [title, [], topAnchor, []], IsQuiet line :=
    List.forall_mem_append.mpr ⟨habove, forall_isQuiet_anchor hheading htitle⟩
  have hclean : ∀ line ∈ lines, isHeadingLine line = true → isStartMarker line = false := by
    intro line hline hhead
    rw [hlines] at hline
    rcases List.mem_append.mp hline with hline | hline
    · rcases List.mem_append.mp hline with hline | hline
      · exact (hfront line hline).1
      · rw [isHeadingLine_eq_false_of_mem_tocListing hline] at hhead
        cases hhead
    · exact (hafter line hline).1
  -- No line above or below opens or ends a block, so the listing is the only one.
  have hblocks := tocBlocks_listed hlines hclean (fun line hline => (hfront line hline).1)
    (fun line hline => (hafter line hline).1)
    (blockReach_eq_zero fun line hline => (hafter line hline).2)
  refine ⟨hanchor, fun _ => ⟨_, hblocks, by simp, ?_⟩, fun h => ?_, ?_⟩
  · have hlisting := linesOf_append (above ++ [title, [], topAnchor, []]) (tocListing lines depth)
      after (length_tocListing_pos _ _)
    rw [← hlines] at hlisting
    rw [hlisting, tocLines, List.dropLast_concat]
  · rw [hsections] at h
    cases h
  · exact orphanEndMarkers_eq_nil_iff.mp (orphanEndMarkers_listed hlines hblocks
      (fun line hline => (hfront line hline).isBareEndMarker_eq_false)
      fun line hline => (hafter line hline).isBareEndMarker_eq_false)

/-! ### Arranged buffers -/

/-- The stages after that of the anchor list the headings of the buffer that comes out, and leave
only quiet lines around the table of contents. -/
theorem isListed_of_arrangeTop (hanchor : ruleLine options.rule ≠ topAnchor)
    (hmarker : isMarkerLine (ruleLine options.rule) = false)
    (hdepth : effectiveDepth options.maxDepth = options.maxDepth)
    (houtline : outline (arrangeLines lines name options) =
      outline (arrangeTop lines name options).1)
    (htop : arrangeTop lines name options =
      (withoutAnchors above ++ title :: [] :: topAnchor :: tail, (withoutAnchors above).length + 2))
    (htitle : headingOfLine? title = some (1, text)) (hmark : isStartMarker title = false)
    (hgap : ∀ line ∈ tail.head?, line = []) (htail : topAnchor ∉ tail)
    (hends : ∀ line ∈ withoutAnchors above ++ tail, isHeadingLine line = false →
      isEndMarker line = true → isBareEndMarker line = true) :
    IsListed (arrangeLines lines name options) options.maxDepth
      ((settledAbove options.footerLevels (ruleLine options.rule) above).length + 2) := by
  have hheading : isHeadingLine title = true := isHeadingLine_iff.mpr ⟨_, _, htitle⟩
  have hplace := (isAnchored_of_arrangeTop hanchor htop htitle hmark hgap htail).only
  have habove : ∀ line ∈ settledAbove options.footerLevels (ruleLine options.rule) above,
      IsQuiet line :=
    forall_isQuiet_renewFooters hmarker fun line => isQuiet_of_mem_withoutToc
      fun line hline => hends line (List.mem_append_left _ hline)
  have htailEnds : ∀ line ∈ tail, isHeadingLine line = false → isEndMarker line = true →
      isBareEndMarker line = true := fun line hline => hends line (List.mem_append_right _ hline)
  have hsections := hasSections_congr houtline options.maxDepth
  obtain ⟨tail', hout, hcases⟩ := exists_arrangeLines_of_arrangeTop htop htitle hmark hgap
  rw [hdepth, ← hsections] at hcases
  rcases hcases with ⟨hnone, rfl⟩ | ⟨hsome, after, rfl, hafter, -, hsource⟩
  · -- Nothing is listed, and every line is quiet.
    refine isListed_of_quiet hnone hplace ?_
    have hparts : arrangeLines lines name options =
        settledAbove options.footerLevels (ruleLine options.rule) above ++ [title, [], topAnchor] ++
          renewFooters options.footerLevels (ruleLine options.rule)
            (baseOpened options.footerLevels) false (withoutToc tail) := by
      rw [hout]
      simp
    rw [hparts]
    refine List.forall_mem_append.mpr ⟨List.forall_mem_append.mpr ⟨habove, ?_⟩,
      forall_isQuiet_renewFooters hmarker fun line => isQuiet_of_mem_withoutToc htailEnds⟩
    exact fun line hline =>
      forall_isQuiet_anchor hheading hmark line (List.mem_append_left [[]] hline)
  · have hafterQuiet : ∀ line ∈ after, IsQuiet line := by
      rw [← hafter]
      refine fun line => isQuiet_of_mem_withoutToc fun line hline hhead hend => ?_
      rcases hsource line hline with hline | rfl
      · exact htailEnds line hline hhead hend
      · cases hend
    have hparts : arrangeLines lines name options =
        settledAbove options.footerLevels (ruleLine options.rule) above ++
          [title, [], topAnchor, []] ++
          tocListing (arrangeLines lines name options) options.maxDepth ++
            renewFooters options.footerLevels (ruleLine options.rule)
              (baseOpened options.footerLevels) false after := by
      have hempty : isHeadingLine ([] : Line) = false ∧ isFooterLine [] = false := by decide
      rw [tocListing_congr houtline, hout, renewFooters_cons_of_plain hempty.1 hempty.2,
        renewFooters_tocListing]
      simp
    exact isListed_of_parts hsome hplace hparts hmark hheading habove
      (forall_isQuiet_renewFooters hmarker hafterQuiet)

/-- An arranged buffer has exactly one table of contents, which describes this very buffer, or none
if there is nothing to list. -/
theorem isListed_arrangeLines (lines : Buffer) (name : List Char) (options : Options)
    (hfeed : '\n' ∉ name) (hpercent : '%' ∉ name) (hangle : '<' ∉ name)
    (hanchor : options.normalized.rule ≠ topAnchor)
    (hmarker : isMarkerLine options.normalized.rule = false)
    (hhash : options.normalized.rule.head? ≠ some '#')
    (hheadings : ∀ line ∈ lines, isHeadingLine line = true → isStartMarker line = false)
    (hends : ∀ line ∈ lines, isHeadingLine line = false → isEndMarker line = true →
      isBareEndMarker line = true) :
    ∃ index, IsListed (arrangeLines lines name options.normalized) options.normalized.maxDepth
      index := by
  have hruleLine : ruleLine options.normalized.rule = options.normalized.rule :=
    ruleLine_usableRule options
  have hdepth : effectiveDepth options.normalized.maxDepth = options.normalized.maxDepth :=
    effectiveDepth_effectiveDepth options.maxDepth
  rw [← hruleLine] at hanchor hmarker hhash
  generalize options.normalized = options at *
  -- What is asked of the lines of the note holds of those that the stages up to the anchor leave.
  have hclean : ∀ line ∈ (arrangeTop lines name options).1,
      isHeadingLine line = true → isStartMarker line = false := fun _ =>
    isStartMarker_eq_false_of_mem_arrangeTop hpercent hangle hheadings
  have hbare : ∀ line ∈ (arrangeTop lines name options).1, isHeadingLine line = false →
      isEndMarker line = true → isBareEndMarker line = true := by
    intro line hline hhead hend
    rcases mem_arrangeTop hline with hline | hline
    · exact hends line hline hhead hend
    · have hquiet := isMarkerLine_eq_false_of_mem_topLines hpercent hangle hline
      rw [(isMarkerLine_eq_false_iff.mp hquiet).2] at hend
      cases hend
  obtain ⟨above, title, below, hcut, htop⟩ := arrangeTop_eq lines name options
  obtain ⟨text, htext⟩ := hcut.headingOfLine?_title hfeed
  have hmark : isStartMarker title = false :=
    hclean title (by simp [htop]) (isHeadingLine_iff.mpr ⟨_, _, htext⟩)
  refine ⟨_, isListed_of_arrangeTop hanchor hmarker hdepth
    (outline_arrangeLines_of_clean hhash hclean) htop htext hmark (head?_ensureEmptyAt _)
    (topAnchor_not_mem_ensureEmptyAt _) fun line hline => hbare line ?_⟩
  rw [htop]
  simp only [List.mem_append, List.mem_cons] at hline ⊢
  tauto

theorem isListed_noteOfStrayLines :
    hasSections (headings (arrangeLines noteOfStrayLines "note".toList ({} : Options).normalized))
        ({} : Options).normalized.maxDepth = true ∧
      ∃ index, IsListed (arrangeLines noteOfStrayLines "note".toList ({} : Options).normalized)
        ({} : Options).normalized.maxDepth index :=
  ⟨by decide +kernel, isListed_arrangeLines noteOfStrayLines "note".toList {} (by decide)
    (by decide) (by decide) (by decide +kernel) (by decide +kernel) (by decide +kernel)
    (by decide +kernel) (by decide +kernel)⟩

end Waymark
