import Waymark.Proofs.SectionText

/-!
# Markers mentioned in other text

A line that mentions a marker inside other text is meant to be the user's own: only lines
that are a marker and nothing else belong to a table of contents. Blocks are found by
mentions all the same. A line that mentions a start marker opens a block and goes, and so
does every line down to the last one that mentions an end marker, unless a heading stands
between. The table of contents that a first pass writes opens a block itself, which reaches
over the mentions below the title in the second pass.

So a mention of an end marker comes through a pass exactly where it stands free of all start
markers, as it does in a section. Two coincidences aside, in which an equal line comes out of
somewhere else: the table of contents writes a link that reads like the mention, or a copy of
the mention that ends in a carriage return loses it to a line end.

## Main definitions

* `blockOpen` — a start marker stands above, with no heading below it
* `StandsFree` — a copy of the line stands where no block reaches it
* `Outlasts` — the line comes out of a pass
* `KeepsMentions` — all mentions come through any number of passes

## Main results

* `mem_outsideBlocks_iff` — which mentions of an end marker are in no block
* `mem_arrangeLines_iff_of_mention`, `mem_splitLines_arrange_iff` — one pass
* `keepsMentions_of_sections` — headings and mentions in sections always come through
* `keepsMentions_iff` — exactly when all mentions come through
-/

namespace Waymark

/-- A start marker stands among the lines, or above them if `opened` holds, and no heading below
it. The marker may itself stand in a heading. -/
def blockOpen (opened : Bool) (lines : List Line) : Bool :=
  lines.foldl (fun opened line => isStartMarker line || (opened && !isHeadingLine line)) opened

/-- The line mentions no start marker, and a copy of it is a heading or has none of them above
without a heading between. -/
def StandsFree (lines : Buffer) (line : Line) : Prop :=
  isStartMarker line = false ∧ ∃ front back, lines = front ++ line :: back ∧
    (isHeadingLine line = true ∨ blockOpen false front = false)

/-- The line comes out when the lines of a note are arranged: it stands free behind the stage of
the anchor, or the table of contents links with such a line, or it comes out with a carriage
return at its end, which the line end below takes off. -/
def Outlasts (lines : Buffer) (name : List Char) (options : Options) (line : Line) : Prop :=
  StandsFree (arrangeTop lines name options).1 line ∨
    (hasSections (headings (arrangeTop lines name options).1)
        (effectiveDepth options.maxDepth) = true ∧
      line ∈ tocListing (arrangeTop lines name options).1 options.maxDepth) ∨
    line ++ ['\r'] ∈ (arrangeLines lines name options).dropLast

/-- All lines of the note that mention a marker, and do not end in a carriage return, are there
after any number of passes. -/
def KeepsMentions (text name : String) (options : Options) : Prop :=
  ∀ passes, ∀ line ∈ splitLines text.toList, isMarkerLine line = true →
    line.getLast? ≠ some '\r' →
      line ∈ splitLines ((arrange · name options)^[passes] text).toList

variable {lines : Buffer} {line rule : Line} {levels opened : List Nat} {endsBlank : Bool}
variable {inside : Nat} {name : List Char} {options : Options}

/-! ### The footers -/

/-- Renewing the footers leaves the lines that mention a marker. -/
theorem filter_renewFooters_isMarkerLine (hrule : isMarkerLine rule = false) (levels : List Nat)
    (opened : List Nat) (endsBlank : Bool) (lines : Buffer) :
    (renewFooters levels rule opened endsBlank lines).filter isMarkerLine =
      lines.filter isMarkerLine := by
  rw [renewFooters, filter_placeFooters (by decide) (by decide) hrule]
  exact filter_keptLines (fun _ => isMarkerLine_eq_false_of_isBlank)
    (fun _ => isMarkerLine_eq_false_of_isMarkLine hrule)
    fun _ => isMarkerLine_eq_false_of_isFooterLine

/-! ### Mentions in blocks -/

theorem blockOpen_of_quiet (h : ∀ l ∈ lines, isStartMarker l = false) :
    blockOpen false lines = false := by
  induction lines with
  | nil => rfl
  | cons first lines ih =>
    rw [blockOpen, List.foldl_cons, h first List.mem_cons_self]
    exact ih fun l hl => h l (List.mem_cons_of_mem _ hl)

/-- How many lines from here on belong to a block, when a start marker stands above with no heading
below it (`opened`): as many as it reaches over from here, whether or not it has met an end marker
yet. -/
def IsReach (opened : Bool) (inside : Nat) (lines : List Line) : Prop :=
  if opened then ∃ closed, inside = blockReach closed lines else inside = 0

theorem isReach_zero (lines : List Line) : IsReach false 0 lines :=
  rfl

theorem isReach_blockReach (closed : Bool) (lines : List Line) :
    IsReach true (blockReach closed lines) lines :=
  ⟨closed, rfl⟩

theorem blockReach_of_heading {closed : Bool} (h : isHeadingLine line = true) :
    blockReach closed (line :: lines) = 0 := by
  rw [blockReach, if_pos h]

theorem blockReach_of_end {closed : Bool} (h : isHeadingLine line = false)
    (hend : isEndMarker line = true) :
    blockReach closed (line :: lines) = blockReach true lines + 1 := by
  rw [blockReach, if_neg (by simp [h]), if_pos hend]

/-- A line that is neither a heading nor an end marker is in a block if the block goes on below it,
and is not if it opens a block that starts after the end of this one. -/
theorem blockReach_of_plain {closed : Bool} (h : isHeadingLine line = false)
    (hend : isEndMarker line = false) :
    blockReach closed (line :: lines) =
      if (isStartMarker line && closed) = true ∨ blockReach closed lines = 0 then 0
      else blockReach closed lines + 1 := by
  rw [blockReach, if_neg (by simp [h]), if_neg (by simp [hend])]
  cases isStartMarker line && closed with
  | true => simp
  | false => cases blockReach closed lines <;> simp

/-- One line more: whether it stays, if it mentions an end marker and no start marker, and how far
a block reaches below it. -/
theorem mem_outsideBlocks_cons_iff {first : Line} {opened : Bool} (hend : isEndMarker line = true)
    (hstart : isStartMarker line = false) (hreach : IsReach opened inside (first :: lines)) :
    ∃ inside', IsReach (isStartMarker first || (opened && !isHeadingLine first)) inside' lines ∧
      (line ∈ outsideBlocks inside (first :: lines) ↔
        (line = first ∧ (isHeadingLine line = true ∨ opened = false)) ∨
          line ∈ outsideBlocks inside' lines) := by
  by_cases hopens : isStartMarker first = true ∧ inside = 0
  · -- A line that opens a block is not the one asked for, and its block follows.
    obtain ⟨hfirst, rfl⟩ := hopens
    have hne : line ≠ first := by
      rintro rfl
      rw [hstart] at hfirst
      cases hfirst
    refine ⟨blockReach false lines, ?_, ?_⟩
    · rw [hfirst, Bool.true_or]
      exact isReach_blockReach false lines
    · rw [outsideBlocks, if_pos hfirst]
      simp [hne]
  have hstays (hzero : inside = 0) : isStartMarker first = false ∧
      outsideBlocks inside (first :: lines) = first :: outsideBlocks 0 lines := by
    have hfirst : ¬isStartMarker first = true := fun h => hopens ⟨h, hzero⟩
    rw [hzero, outsideBlocks, if_neg hfirst]
    exact ⟨by simpa using hfirst, rfl⟩
  cases opened with
  | false =>
    obtain ⟨hfirst, hkept⟩ := hstays hreach
    refine ⟨0, by simp [hfirst, IsReach], ?_⟩
    rw [hkept, List.mem_cons]
    simp
  | true =>
    obtain ⟨closed, rfl⟩ := hreach
    cases hheading : isHeadingLine first with
    | true =>
      obtain ⟨hfirst, hkept⟩ := hstays (blockReach_of_heading hheading)
      refine ⟨0, by simp [hfirst, IsReach], ?_⟩
      rw [hkept, List.mem_cons]
      refine or_congr_left ⟨?_, And.left⟩
      rintro rfl
      exact ⟨rfl, Or.inl hheading⟩
    | false =>
      -- The block stays open, and the line is either in it or no end marker.
      have hgoes : ¬(line = first ∧ (isHeadingLine line = true ∨ true = false)) := by
        rintro ⟨rfl, h | h⟩
        · rw [hheading] at h
          cases h
        · cases h
      simp only [hgoes, false_or, Bool.not_false, Bool.and_true, Bool.or_true]
      cases hfirstEnd : isEndMarker first with
      | true =>
        refine ⟨blockReach true lines, isReach_blockReach true lines, ?_⟩
        rw [blockReach_of_end hheading hfirstEnd]
        rfl
      | false =>
        refine ⟨blockReach closed lines, isReach_blockReach closed lines, ?_⟩
        have hne : line ≠ first := by
          rintro rfl
          rw [hend] at hfirstEnd
          cases hfirstEnd
        by_cases hover : (isStartMarker first && closed) = true ∨ blockReach closed lines = 0
        · obtain ⟨hfirst, hkept⟩ :=
            hstays (by rw [blockReach_of_plain hheading hfirstEnd, if_pos hover])
          have hrest : blockReach closed lines = 0 := by simpa [hfirst] using hover
          rw [hkept, hrest, List.mem_cons, or_iff_right hne]
        · rw [blockReach_of_plain hheading hfirstEnd, if_neg hover]
          rfl

/-- A mention of an end marker is outside of blocks where it is a heading, or where no start marker
stands above without a heading between. -/
theorem mem_outsideBlocks_iff {opened : Bool} (hend : isEndMarker line = true)
    (hstart : isStartMarker line = false) (hreach : IsReach opened inside lines) :
    line ∈ outsideBlocks inside lines ↔ ∃ front back, lines = front ++ line :: back ∧
      (isHeadingLine line = true ∨ blockOpen opened front = false) := by
  induction lines generalizing opened inside with
  | nil => simp [outsideBlocks]
  | cons first lines ih =>
    obtain ⟨inside', hreach', hstep⟩ := mem_outsideBlocks_cons_iff hend hstart hreach
    rw [hstep, ih hreach']
    constructor
    · rintro (⟨rfl, hfree⟩ | ⟨front, back, rfl, hfree⟩)
      · exact ⟨[], lines, rfl, hfree⟩
      · exact ⟨first :: front, back, rfl, hfree⟩
    · rintro ⟨front, back, hlines, hfree⟩
      cases front with
      | nil =>
        obtain ⟨rfl, rfl⟩ := List.cons.inj hlines
        exact Or.inl ⟨rfl, hfree⟩
      | cons first' front =>
        obtain ⟨rfl, rfl⟩ := List.cons.inj hlines
        exact Or.inr ⟨front, back, rfl, hfree⟩

/-- When the tables of contents go, the mentions that stay are those that stand free. -/
theorem mem_withoutToc_iff_of_mention (hmarker : isMarkerLine line = true)
    (hbare : isBareMarker line = false) : line ∈ withoutToc lines ↔ StandsFree lines line := by
  have hnotBare : isBareEndMarker line = false := by
    rw [isBareMarker, Bool.or_eq_false_iff] at hbare
    exact hbare.2
  cases hstart : isStartMarker line with
  | true =>
    constructor
    · intro h
      rw [isStartMarker_eq_false_of_mem_withoutToc h] at hstart
      cases hstart
    · rintro ⟨h, -⟩
      rw [hstart] at h
      cases h
  | false =>
    have hend : isEndMarker line = true := by
      rwa [isMarkerLine, hstart, Bool.false_or] at hmarker
    rw [withoutToc, List.mem_filter, hnotBare, Bool.not_false, and_iff_left rfl,
      mem_outsideBlocks_iff hend hstart (isReach_zero lines), StandsFree, and_iff_right hstart]

/-! ### Passes -/

theorem ne_nil_of_isMarkerLine (h : isMarkerLine line = true) : line ≠ [] := by
  rintro rfl
  revert h
  decide

/-- Which mentions come out when the lines of a note are arranged. -/
theorem mem_arrangeLines_iff_of_mention (hrule : isMarkerLine (ruleLine options.rule) = false)
    (hmarker : isMarkerLine line = true) (hbare : isBareMarker line = false) :
    line ∈ arrangeLines lines name options ↔
      StandsFree (arrangeTop lines name options).1 line ∨
        (hasSections (headings (arrangeTop lines name options).1)
            (effectiveDepth options.maxDepth) = true ∧
          line ∈ tocListing (arrangeTop lines name options).1 options.maxDepth) := by
  have hfooters := congrArg (line ∈ ·) (filter_renewFooters_isMarkerLine hrule options.footerLevels
    [] false (listedLines lines name options))
  simp only [List.mem_filter, hmarker, and_true, eq_iff_iff] at hfooters
  rw [arrangeLines_eq, hfooters, listedLines,
    mem_ensureToc_iff (ne_nil_of_isMarkerLine hmarker), mem_withoutToc_iff_of_mention hmarker hbare]

/-- Which mentions come through one pass. -/
theorem mem_splitLines_arrange_iff {text name : String} (hneeds : needsNavigation text = true)
    (hfeed : '\n' ∉ name.toList) (hone : '\n' ∉ options.normalized.rule)
    (hrule : isMarkerLine options.normalized.rule = false) (hmarker : isMarkerLine line = true)
    (hbare : isBareMarker line = false) (hreturn : line.getLast? ≠ some '\r') :
    line ∈ splitLines (arrange text name options).toList ↔
      Outlasts (splitLines text.toList) name.toList options.normalized line := by
  have hruleLine : ruleLine options.normalized.rule = options.normalized.rule :=
    ruleLine_usableRule options
  have hlines : ∀ l ∈ arrangeLines (splitLines text.toList) name.toList options.normalized,
      '\n' ∉ l := fun _ => newline_not_mem_of_mem_arrangeLines_normalized hfeed hone
  rw [← hruleLine] at hrule
  rw [splitLines_arrange hneeds, mem_relined_iff hlines (ne_nil_of_isMarkerLine hmarker) hreturn,
    mem_arrangeLines_iff_of_mention hrule hmarker hbare, Outlasts, or_assoc]

/-! ### Headings -/

theorem mem_belowGap_of_mem (h : line ∈ lines) (hne : line ≠ []) : line ∈ belowGap lines := by
  match lines with
  | [] => exact h
  | [] :: rest => exact (List.mem_cons.mp h).resolve_left hne
  | (c :: first) :: rest => exact h

theorem mem_ensureEmptyAt_of_mem (h : line ∈ lines) (hne : line ≠ []) :
    line ∈ ensureEmptyAt lines 0 := by
  rw [ensureEmptyAt_zero, if_neg (List.ne_nil_of_mem h)]
  exact List.mem_cons_of_mem _ (mem_belowGap_of_mem h hne)

theorem mem_withoutAnchors_of_mem (h : line ∈ lines) (hne : line ≠ topAnchor) :
    line ∈ withoutAnchors lines :=
  List.mem_filter.mpr ⟨h, by simpa using hne⟩

theorem mem_titleStart_of_mem (h : line ∈ lines) (create : Bool) :
    line ∈ (titleStart lines create).1 := by
  rw [titleStart_fst]
  exact List.mem_append_right _ h

/-- The stages up to the anchor keep all lines but empty ones and anchors. -/
theorem mem_arrangeTop_of_mem (h : line ∈ lines) (hne : line ≠ []) (hanchor : line ≠ topAnchor)
    (name : List Char) (options : Options) : line ∈ (arrangeTop lines name options).1 := by
  obtain ⟨above, title, below, hcut, htop⟩ := arrangeTop_eq lines name options
  -- Only empty lines and anchors are lost, so the line is on one side of the title or is the title.
  have hparts : line ∈ above ∨ line = title ∨ line ∈ below := by
    have hstart := mem_titleStart_of_mem h options.createFrontmatter
    generalize titleStart lines options.createFrontmatter = cut at hcut hstart
    cases hcut with
    | found hlines =>
      rw [hlines] at hstart
      simpa using hstart
    | made =>
      rw [← List.take_append_drop cut.2 cut.1, List.mem_append] at hstart
      rcases hstart with hstart | hstart
      · exact Or.inl (List.mem_append_left _ hstart)
      · exact Or.inr (Or.inr (List.mem_cons_of_mem _ (mem_belowGap_of_mem hstart hne)))
  rw [htop]
  simp only [List.mem_append, List.mem_cons]
  rcases hparts with habove | rfl | hbelow
  · exact Or.inl (mem_withoutAnchors_of_mem habove hanchor)
  · exact Or.inr (Or.inl rfl)
  · exact Or.inr (Or.inr (Or.inr (Or.inr (mem_ensureEmptyAt_of_mem
      (mem_withoutAnchors_of_mem (mem_belowGap_of_mem hbelow hne) hanchor) hne))))

/-- A heading that mentions no start marker stands free of them. -/
theorem outlasts_of_isHeadingLine (h : line ∈ lines) (hheading : isHeadingLine line = true)
    (hstart : isStartMarker line = false) : Outlasts lines name options line := by
  have hne : line ≠ [] := by
    rintro rfl
    cases hheading
  have hanchor : line ≠ topAnchor := by
    rintro rfl
    cases hheading
  obtain ⟨front, back, htop⟩ :=
    List.append_of_mem (mem_arrangeTop_of_mem h hne hanchor name options)
  exact Or.inl ⟨hstart, front, back, htop, Or.inl hheading⟩

/-- A mention that stands in a section stands free of start markers. -/
theorem outlasts_of_standsInSection (h : StandsInSection lines line)
    (hmarker : isMarkerLine line = true) : Outlasts lines name options line := by
  obtain ⟨head, text, hhead, htext, before, behind, htop⟩ :=
    h.arrangeTop (ne_topAnchor_of_isMarkerLine hmarker) name options
  obtain ⟨hheading, -, hheadStart, -⟩ := opensSection_iff.mp hhead
  have hstart : ∀ l ∈ text ++ [line], isStartMarker l = false := fun l hl =>
    (isSectionText_iff.mp (htext l hl)).2.2.1
  refine Or.inl ⟨hstart line (by simp), before ++ head :: text, behind, ?_, Or.inr ?_⟩
  · rw [← htop]
    simp
  · rw [blockOpen, List.foldl_append, List.foldl_cons, hheading, hheadStart]
    simp only [Bool.not_true, Bool.and_false, Bool.or_self]
    rw [← blockOpen, blockOpen_of_quiet fun l hl => hstart l (by simp [hl])]

section

variable {text name : String} (hfeed : '\n' ∉ name.toList) (hone : '\n' ∉ options.normalized.rule)
  (hrule : isMarkerLine options.normalized.rule = false)
include hfeed hone hrule

/-- A heading that mentions an end marker comes through any number of passes. -/
theorem mem_iterate_arrange_of_isHeadingLine (h : line ∈ splitLines text.toList)
    (hmarker : isMarkerLine line = true) (hheading : isHeadingLine line = true)
    (hstart : isStartMarker line = false) (hreturn : line.getLast? ≠ some '\r') (passes : Nat) :
    line ∈ splitLines ((arrange · name options)^[passes] text).toList := by
  have hbare : isBareMarker line = false := by
    by_contra hbare
    rw [isHeadingLine_eq_false_of_isBareMarker (by simpa using hbare)] at hheading
    cases hheading
  induction passes with
  | zero => exact h
  | succ passes ih =>
    rw [Function.iterate_succ_apply']
    generalize (arrange · name options)^[passes] text = text' at ih
    by_cases hneeds : needsNavigation text' = true
    · exact (mem_splitLines_arrange_iff hneeds hfeed hone hrule hmarker hbare hreturn).mpr
        (outlasts_of_isHeadingLine ih hheading hstart)
    · rwa [arrange, if_neg hneeds]

/-- Where no heading mentions a start marker, all mentions come through that are headings or stand
in sections. -/
theorem keepsMentions_of_sections (hpercent : '%' ∉ name.toList) (hangle : '<' ∉ name.toList)
    (hnoHash : options.normalized.rule.head? ≠ some '#')
    (hclean : ∀ line ∈ splitLines text.toList,
      isHeadingLine line = true → isStartMarker line = false)
    (h : ∀ line ∈ splitLines text.toList, isMarkerLine line = true →
      isHeadingLine line = true ∨ StandsInSection (splitLines text.toList) line) :
    KeepsMentions text name options := by
  intro passes line hline hmarker hreturn
  rcases h line hline hmarker with hheading | hsection
  · exact mem_iterate_arrange_of_isHeadingLine hfeed hone hrule hline hmarker hheading
      (hclean line hline hheading) hreturn passes
  · exact (standsInSection_iterate_arrange hmarker hpercent hangle hfeed hone hnoHash hrule hsection
      hclean passes).mem

end

/-! ### Any number of passes -/

/-- In a note without bare markers all mentions come through any number of passes exactly if they
come out of every single one that has anything to arrange. -/
theorem keepsMentions_iff (text name : String) (options : Options)
    (hbare : ∀ line ∈ splitLines text.toList, isBareMarker line = false)
    (hfeed : '\n' ∉ name.toList) (hone : '\n' ∉ options.normalized.rule)
    (hrule : isMarkerLine options.normalized.rule = false) :
    KeepsMentions text name options ↔
      ∀ passes, needsNavigation ((arrange · name options)^[passes] text) = true →
        ∀ line ∈ splitLines text.toList, isMarkerLine line = true → line.getLast? ≠ some '\r' →
          Outlasts (splitLines ((arrange · name options)^[passes] text).toList) name.toList
            options.normalized line := by
  constructor
  · intro h passes hneeds line hline hmarker hreturn
    have hnext := h (passes + 1) line hline hmarker hreturn
    rw [Function.iterate_succ_apply'] at hnext
    exact (mem_splitLines_arrange_iff hneeds hfeed hone hrule hmarker (hbare line hline) hreturn).mp
      hnext
  · intro h passes line hline hmarker hreturn
    induction passes with
    | zero => exact hline
    | succ passes ih =>
      have houtlasts := fun hneeds => h passes hneeds line hline hmarker hreturn
      rw [Function.iterate_succ_apply']
      generalize (arrange · name options)^[passes] text = text' at ih houtlasts
      by_cases hneeds : needsNavigation text' = true
      · exact (mem_splitLines_arrange_iff hneeds hfeed hone hrule hmarker (hbare line hline)
          hreturn).mpr (houtlasts hneeds)
      · rwa [arrange, if_neg hneeds]

/-- A note that mentions an end marker in a section keeps the mention. -/
theorem keepsMentions_of_section :
    (∀ line ∈ splitLines "# Guide\n\n## Usage\nIt closes with %% MDNAV:TOC END %%.\n## More".toList,
        isBareMarker line = false) ∧
      KeepsMentions "# Guide\n\n## Usage\nIt closes with %% MDNAV:TOC END %%.\n## More" "guide"
        {} := by
  have hbare : ∀ line ∈ splitLines
      "# Guide\n\n## Usage\nIt closes with %% MDNAV:TOC END %%.\n## More".toList,
        isBareMarker line = false := by
    decide +kernel
  have hfeed : '\n' ∉ "guide".toList := by decide +kernel
  have hone : '\n' ∉ ({} : Options).normalized.rule := by decide +kernel
  have hrule : isMarkerLine ({} : Options).normalized.rule = false := by decide +kernel
  have honly : ∀ line ∈ splitLines
      "# Guide\n\n## Usage\nIt closes with %% MDNAV:TOC END %%.\n## More".toList,
        isMarkerLine line = true → line = "It closes with %% MDNAV:TOC END %%.".toList := by
    decide +kernel
  have hsection : StandsInSection (splitLines
      "# Guide\n\n## Usage\nIt closes with %% MDNAV:TOC END %%.\n## More".toList)
        "It closes with %% MDNAV:TOC END %%.".toList :=
    ⟨"## Usage".toList, [], by decide +kernel, by decide +kernel, by decide +kernel⟩
  refine ⟨hbare, (keepsMentions_iff _ _ _ hbare hfeed hone hrule).mpr ?_⟩
  intro passes _ line hline hmarker _
  obtain rfl := honly line hline hmarker
  refine outlasts_of_standsInSection ?_ hmarker
  exact standsInSection_iterate_arrange hmarker (by decide +kernel) (by decide +kernel) hfeed hone
    (by decide +kernel) hrule hsection (by decide +kernel) passes

/-- A mention below the title is lost in the second pass, to the block that the first one writes. -/
theorem not_keepsMentions_below_title :
    (∀ line ∈ splitLines "# T\nsee %% MDNAV:TOC END %%\n## A\nx".toList,
        isBareMarker line = false) ∧
      ('%' ∉ "note".toList ∧ '<' ∉ "note".toList ∧ '\n' ∉ "note".toList) ∧
      ('\n' ∉ ({} : Options).normalized.rule ∧
        isMarkerLine ({} : Options).normalized.rule = false) ∧
      ¬ KeepsMentions "# T\nsee %% MDNAV:TOC END %%\n## A\nx" "note" {} := by
  refine ⟨by decide +kernel, by decide +kernel, by decide +kernel, fun h => ?_⟩
  have hfirst : needsNavigation "# T\nsee %% MDNAV:TOC END %%\n## A\nx" = true := by decide +kernel
  have hsecond : needsNavigation
      (arrange "# T\nsee %% MDNAV:TOC END %%\n## A\nx" "note" {}) = true := by
    rw [needsNavigation, splitLines_arrange hfirst]
    decide +kernel
  have hlost := h 2 "see %% MDNAV:TOC END %%".toList (by decide +kernel) (by decide +kernel)
    (by decide +kernel)
  rw [Function.iterate_succ_apply', Function.iterate_one, splitLines_arrange hsecond,
    splitLines_arrange hfirst] at hlost
  revert hlost
  decide +kernel

end Waymark
