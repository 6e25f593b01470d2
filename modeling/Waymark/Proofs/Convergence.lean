import Waymark.Options
import Waymark.Proofs.FooterPlacement
import Waymark.Proofs.FreshNotes

/-!
# Rule lines under which notes settle

Options are read from JSON with any text as their rule line. A fresh note settles after one pass
under every rule line that lasts. Under any other rule line some fresh note does not: its second
pass leaves something of the rule line behind the new footer, writes a second empty line below the
table of contents, or takes the text of the note for a part of the table of contents.

## Main definitions

* `RuleConverges` — every fresh note is settled after one pass under the rule line
* `footedLines` — a note of one section behind its first pass
* `upperNote` — a note of one section with text below the title, behind its first pass

## Main results

* `ruleConverges_iff` — exactly the lasting rule lines converge
-/

namespace Waymark

/-- Under the rule line, every fresh note is settled after one pass, whatever the other options. -/
def RuleConverges (rule : String) : Prop :=
  ∀ (value : Json) (options : Options) (text name : String),
    Options.ofJson value = .ok options → options.rule = rule.toList → PlainName name.toList →
      '\r' ∉ text.toList → IsFresh (splitLines text.toList) →
        arrange (arrange text name options) name options = arrange text name options

variable {tail : Buffer} {line rule : Line} {options : Options}

/-! ### Settled notes -/

/-- A settled note comes out of its second pass in the lines that its first one wrote. -/
theorem textLines_eq_of_settled {text name : String} {first second : Buffer}
    (hneeds : needsNavigation text = true)
    (hfirst : arrangeLines (splitLines text.toList) name.toList options.normalized = first)
    (hagain : 1 < (outline (relined first)).length)
    (hsecond : arrangeLines (relined first) name.toList options.normalized = second)
    (h : arrange (arrange text name options) name options = arrange text name options) :
    textLines second = textLines first := by
  have hread : splitLines (arrange text name options).toList = relined first := by
    rw [splitLines_arrange hneeds, hfirst]
  -- A text without two headings is left alone, so the second pass has to be one that is made.
  have hneeds' : needsNavigation (arrange text name options) = true := by
    rw [needsNavigation, length_headings, hread, decide_eq_true_eq]
    exact hagain
  have hjoin : joinLines second = joinLines first := by
    have htext := congrArg String.toList h
    rwa [toList_arrange hneeds', hread, hsecond, toList_arrange hneeds, hfirst] at htext
  have hne : joinLines first ≠ [] := by
    intro hnil
    rw [← splitLines_joinLines, hnil] at hagain
    revert hagain
    decide
  have hne' := hjoin ▸ hne
  rw [← splitOn_joinLines fun hnil => hne' (by rw [hnil]; rfl), hjoin,
    splitOn_joinLines fun hnil => hne (by rw [hnil]; rfl)]

/-! ### A section below the title -/

/-- The lines of a note of one section with its table of contents. -/
def sectionLines : Buffer :=
  ["# T".toList, [], topAnchor, []] ++ tocListing ["## A".toList] defaultDepth ++
    [[], "## A".toList]

/-- These lines with the footer of the section, whose rule line is read as the given lines. -/
def footedLines (tail : Buffer) : Buffer :=
  sectionLines ++ [] :: backToTop :: [] :: tail

/-- What stands below the anchor of these lines, through the link of the footer. -/
def belowAnchor : Buffer :=
  [] :: (tocListing ["## A".toList] defaultDepth ++ [[], "## A".toList, [], backToTop, []])

theorem plainName_section : PlainName "n".toList :=
  ⟨by decide, by decide, by decide, by decide⟩

theorem isFresh_section : IsFresh (splitLines "# T\n## A".toList) :=
  ⟨by decide, by decide, by decide, by decide⟩

theorem headingOfLine?_sectionTitle : headingOfLine? "# T".toList = some (1, "T".toList) := by
  decide

theorem footedLines_eq_append (tail : Buffer) : footedLines tail = footedLines [] ++ tail := by
  simp [footedLines]

theorem footedLines_eq_title (tail : Buffer) :
    footedLines tail = "# T".toList :: [] :: topAnchor :: (belowAnchor ++ tail) := by
  simp [footedLines, sectionLines, belowAnchor]

theorem footedLines_eq_listing (tail : Buffer) :
    footedLines tail = ["# T".toList, [], topAnchor, []] ++
      (tocListing ["## A".toList] defaultDepth ++
        [] :: "## A".toList :: [] :: backToTop :: [] :: tail) := by
  simp [footedLines, sectionLines]

theorem cleanLine_of_mem_footedLines_nil (h : line ∈ footedLines []) : CleanLine line := by
  have hclean : ∀ line ∈ footedLines [], '\n' ∉ line ∧ line.getLast? ≠ some '\r' := by
    decide
  exact hclean line h

theorem newline_not_mem_of_mem_footedLines (htail : ∀ line ∈ tail, '\n' ∉ line)
    (h : line ∈ footedLines tail) : '\n' ∉ line := by
  rw [footedLines_eq_append] at h
  exact (List.mem_append.mp h).elim (fun h => (cleanLine_of_mem_footedLines_nil h).1) (htail line)

theorem textLines_footedLines (rule : Line) :
    textLines (footedLines [rule]) = footedLines (rule.splitOn '\n') := by
  have hrule : textLines [rule] = rule.splitOn '\n' := List.flatMap_singleton _ _
  rw [footedLines_eq_append, footedLines_eq_append (rule.splitOn '\n'), textLines_append,
    textLines_of_newline fun _ hline => (cleanLine_of_mem_footedLines_nil hline).1, hrule]

theorem relined_footedLines (rule : Line) :
    relined (footedLines [rule]) = footedLines (splitLines rule) := by
  have hread : (footedLines []).flatMap closedLines = footedLines [] :=
    flatMap_closedLines_of_clean fun _ => cleanLine_of_mem_footedLines_nil
  rw [footedLines_eq_append, footedLines_eq_append (splitLines rule),
    relined_append _ (List.cons_ne_nil rule []), hread]
  rfl

/-! ### The first pass over a section -/

theorem listedLines_section (rule : Line) :
    listedLines (splitLines "# T\n## A".toList) "n".toList { rule } = sectionLines := by
  have h : listedLines (splitLines "# T\n## A".toList) "n".toList {} = sectionLines := by
    decide
  exact h

/-- Renewing the footers leaves the lines through the heading of the section as they are. -/
theorem renewFooters_sectionLines (rule : Line) (tail : Buffer) :
    renewFooters [2] rule [] false (sectionLines ++ tail) =
      sectionLines ++ renewFooters [2] rule [2] false tail := by
  have hplain : ∀ line ∈ ([] :: (tocListing ["## A".toList] defaultDepth ++ [[]]) : Buffer),
      isHeadingLine line = false := by
    decide
  have hbase : baseOpened [2] = [] := by decide
  have hopened : nextOpened [2] [] "## A".toList = [2] := by decide
  have hblank : isBlank "## A".toList = false := by decide
  have hparts : sectionLines ++ tail = [] ++ "# T".toList :: [] :: topAnchor ::
      (([] :: (tocListing ["## A".toList] defaultDepth ++ [[]])) ++ "## A".toList :: tail) := by
    simp [sectionLines]
  rw [hparts, renewFooters_anchored headingOfLine?_sectionTitle, hbase,
    renewFooters_nil_append _ _ _ hplain, renewFooters_nil_cons, hopened, hblank]
  simp [sectionLines, renewFooters, keptLines, placeFooters, footerStack]

theorem arrangeLines_section (hrule : ruleLine rule = rule) :
    arrangeLines (splitLines "# T\n## A".toList) "n".toList { rule } = footedLines [rule] := by
  have hfooter := renewFooters_sectionLines rule []
  rw [List.append_nil] at hfooter
  rw [arrangeLines_eq, listedLines_section]
  show renewFooters [2] (ruleLine rule) [] false sectionLines = footedLines [rule]
  rw [hrule, hfooter]
  rfl

/-! ### The second pass over a section -/

/-- The headings of the note stay where they are, so there is something to list. -/
theorem hasSections_footedLines (tail : Buffer) :
    hasSections (headings (footedLines tail)) (effectiveDepth defaultDepth) = true := by
  have hlisted : (outline sectionLines).any
      (fun pair => 2 ≤ pair.1 && pair.1 ≤ effectiveDepth defaultDepth) = true := by
    decide
  rw [hasSections_eq, footedLines, outline_append, List.any_append, hlisted, Bool.true_or]

/-- The second pass takes the anchors out of the rule line. -/
theorem arrangeTop_footedLines (rule : Line) (tail : Buffer) :
    arrangeTop (footedLines tail) "n".toList { rule } =
      (footedLines (withoutAnchors tail), 2) := by
  have hnone : findFrontmatter (footedLines tail) = none := by
    apply findFrontmatter_eq_none
    intro line hline
    rw [footedLines_eq_title, List.dropWhile_cons_of_neg (by decide)] at hline
    obtain rfl := Option.some.inj hline
    decide
  have hgap : ∀ line ∈ (belowAnchor ++ tail).head?, line = [] := by
    simp [belowAnchor]
  have htop : arrangeTop (footedLines tail) "n".toList { rule } =
      (withoutAnchors [] ++ "# T".toList :: [] :: topAnchor :: withoutAnchors (belowAnchor ++ tail),
        (withoutAnchors []).length + 2) :=
    arrangeTop_of_parts (footedLines_eq_title tail) headingOfLine?_sectionTitle
      (titleStart_of_none hnone) (Nat.zero_le _) (by simp) hgap
  have hanchors : withoutAnchors belowAnchor = belowAnchor :=
    withoutAnchors_eq_self (by decide)
  rw [htop, footedLines_eq_title, withoutAnchors_append, hanchors]
  rfl

theorem arrangeLines_footedLines (hrule : ruleLine rule = rule) :
    arrangeLines (relined (footedLines [rule])) "n".toList { rule } =
      renewFooters [2] rule [] false
        (ensureToc (footedLines (withoutAnchors (splitLines rule))) 2 defaultDepth) := by
  rw [relined_footedLines, arrangeLines_eq, listedLines, arrangeTop_footedLines]
  show renewFooters [2] (ruleLine rule) [] false _ = _
  rw [hrule]

/-- A note of one section settles only if its second pass writes the lines of the first one. -/
theorem textLines_section (hrule : ruleLine rule = rule) (hnormal : options.normalized = { rule })
    (h : arrange (arrange "# T\n## A" "n" options) "n" options = arrange "# T\n## A" "n" options) :
    textLines (renewFooters [2] rule [] false
        (ensureToc (footedLines (withoutAnchors (splitLines rule))) 2 defaultDepth)) =
      textLines (footedLines [rule]) := by
  have hfirst : arrangeLines (splitLines "# T\n## A".toList) "n".toList options.normalized =
      footedLines [rule] := by
    rw [hnormal]
    exact arrangeLines_section hrule
  have hagain : 1 < (outline (relined (footedLines [rule]))).length := by
    have htwo : 1 < (outline sectionLines).length := by decide
    rw [relined_footedLines, footedLines, outline_append, List.length_append]
    omega
  have hsecond : arrangeLines (relined (footedLines [rule])) "n".toList options.normalized =
      renewFooters [2] rule [] false
        (ensureToc (footedLines (withoutAnchors (splitLines rule))) 2 defaultDepth) := by
    rw [hnormal]
    exact arrangeLines_footedLines hrule
  exact textLines_eq_of_settled (by decide) hfirst hagain hsecond h

/-! ### The table of contents of a section -/

/-- A stale table of contents is written anew, and what was below the old one keeps the empty
line that was there. -/
theorem exists_ensureToc_of_stale
    (hstale : isTocCurrent (footedLines tail) 4 defaultDepth = false) :
    ∃ kept, ensureToc (footedLines tail) 2 defaultDepth = [] ++ "# T".toList :: [] :: topAnchor ::
      (([] :: (tocListing (footedLines tail) defaultDepth ++ [[], []])) ++ kept) := by
  have hhead : isHeadingLine "## A".toList = true := by decide
  have hkept : withoutToc (tocListing ["## A".toList] defaultDepth ++ [[]]) = [[]] := by
    decide
  have hbelow : (belowAnchor ++ tail).tail = (tocListing ["## A".toList] defaultDepth ++ [[]]) ++
      "## A".toList :: ([[], backToTop, []] ++ tail) := by
    simp [belowAnchor]
  have htoc : ensureToc (footedLines tail) 2 defaultDepth =
      withoutToc [] ++ "# T".toList :: [] :: topAnchor :: [] ::
        (tocLines (footedLines tail) defaultDepth ++ withoutToc (belowAnchor ++ tail).tail) :=
    ensureToc_stale (footedLines_eq_title tail) (by decide) (by decide) rfl (by simp [belowAnchor])
      (hasSections_footedLines tail) hstale
  rw [hbelow, withoutToc_append_heading hhead, hkept] at htoc
  refine ⟨withoutToc ("## A".toList :: ([[], backToTop, []] ++ tail)), ?_⟩
  rw [htoc]
  simp [tocLines]

/-- A second pass that finds the table of contents stale leaves two empty lines below it. -/
theorem exists_textLines_of_stale (rule : Line) (htail : ∀ line ∈ tail, '\n' ∉ line)
    (hstale : isTocCurrent (footedLines tail) 4 defaultDepth = false) :
    ∃ more,
      textLines (renewFooters [2] rule [] false (ensureToc (footedLines tail) 2 defaultDepth)) =
        ["# T".toList, [], topAnchor, []] ++
          (tocListing (footedLines tail) defaultDepth ++ [] :: [] :: more) := by
  obtain ⟨kept, hshape⟩ := exists_ensureToc_of_stale hstale
  have hbase : baseOpened [2] = [] := by decide
  have hplain : ∀ line ∈ [] :: (tocListing (footedLines tail) defaultDepth ++ [[], []]),
      isHeadingLine line = false := by
    intro line hline
    simp only [List.mem_cons, List.mem_append, List.not_mem_nil, or_false] at hline
    rcases hline with rfl | hline | rfl | rfl
    · rfl
    · exact isHeadingLine_eq_false_of_mem_tocListing hline
    · rfl
    · rfl
  -- No heading stands above the end of the listing, so no footer is put in or taken there.
  have hsecond : renewFooters [2] rule [] false (ensureToc (footedLines tail) 2 defaultDepth) =
      (["# T".toList, [], topAnchor, []] ++
        (tocListing (footedLines tail) defaultDepth ++ [[], []])) ++
          renewFooters [2] rule [] false kept := by
    rw [hshape, renewFooters_anchored headingOfLine?_sectionTitle, hbase,
      renewFooters_nil_append _ _ _ hplain]
    simp [renewFooters, keptLines, placeFooters, footerStack]
  have hfront : ∀ line ∈ ["# T".toList, [], topAnchor, []] ++
      (tocListing (footedLines tail) defaultDepth ++ [[], []]), '\n' ∉ line := by
    have htop : ∀ line ∈ ["# T".toList, [], topAnchor, []], '\n' ∉ line := by decide
    have hgap : ∀ line ∈ ([[], []] : Buffer), '\n' ∉ line := by decide
    intro line hline
    rcases List.mem_append.mp hline with hline | hline
    · exact htop line hline
    · rcases List.mem_append.mp hline with hline | hline
      · exact (cleanLine_of_mem_tocLines (fun _ => newline_not_mem_of_mem_footedLines htail)
          (List.mem_append_left _ hline)).1
      · exact hgap line hline
  refine ⟨textLines (renewFooters [2] rule [] false kept), ?_⟩
  rw [hsecond, textLines_append, textLines_of_newline hfront]
  simp

/-- In a settled note the table of contents is current. -/
theorem isTocCurrent_footedLines (htail : ∀ line ∈ tail, '\n' ∉ line)
    (h : textLines (renewFooters [2] rule [] false (ensureToc (footedLines tail) 2 defaultDepth)) =
      textLines (footedLines [rule])) :
    isTocCurrent (footedLines tail) 4 defaultDepth = true := by
  by_contra hstale
  obtain ⟨more, hmore⟩ := exists_textLines_of_stale rule htail (by simpa using hstale)
  rw [hmore, textLines_footedLines, footedLines_eq_listing (rule.splitOn '\n')] at h
  -- The first empty line below the table of contents is followed by a second one.
  obtain ⟨-, -, hrest⟩ := eq_of_first isBlank (List.append_cancel_left h) rfl rfl
    (fun _ => isBlank_eq_false_of_mem_tocListing) fun _ => isBlank_eq_false_of_mem_tocListing
  cases hrest

/-- Where the table of contents is current, no line of the rule line opens or closes one. -/
theorem isQuiet_of_isTocCurrent (h : isTocCurrent (footedLines tail) 4 defaultDepth = true) :
    ∀ line ∈ tail, isStartMarker line = false ∧ isBareEndMarker line = false := by
  obtain ⟨front, back, hlines, hlength, -, hleft⟩ := exists_of_isTocCurrent h
  have hcut := hlines
  rw [footedLines_eq_listing, List.append_assoc] at hcut
  obtain ⟨-, hbelow⟩ := List.append_inj hcut hlength.symm
  -- The listing has no blank line, so it ends above the rule line.
  have hback : ∀ line ∈ tail, line ∈ back := by
    intro line hline
    rcases List.append_eq_append_iff.mp hbelow with ⟨more, hlisting, hrest⟩ | ⟨more, -, rfl⟩
    · cases more with
      | nil =>
        rw [List.nil_append] at hrest
        simp [← hrest, hline]
      | cons first more =>
        obtain ⟨rfl, -⟩ := List.cons.inj hrest
        have hblank : isBlank [] = false := isBlank_eq_false_of_mem_tocListing
          (hlisting.symm ▸ List.mem_append_right _ List.mem_cons_self)
        cases hblank
    · simp [hline]
  intro line hline
  have hmem : line ∈ withoutToc (footedLines tail) := by
    rw [hleft]
    exact List.mem_append_right _ (hback line hline)
  exact ⟨isStartMarker_eq_false_of_mem_withoutToc hmem,
    isBareEndMarker_eq_false_of_mem_withoutToc hmem⟩

/-! ### The footer of a section -/

/-- In a settled note, nothing of the rule line stays when the footers are taken out. -/
theorem keptLines_eq_nil_of_settled
    (h : textLines (renewFooters [2] rule [] false (footedLines tail)) =
      textLines (footedLines [rule])) :
    keptLines [2] rule (some 2) 0 (backToTop :: [] :: tail) = [] := by
  have hrenewed : renewFooters [2] rule [] false (footedLines tail) = sectionLines ++ [[]] ++
      placeFooters [2] rule [2] true (keptLines [2] rule (some 2) 0 (backToTop :: [] :: tail)) := by
    rw [footedLines, renewFooters_sectionLines, renewFooters_cons_of_plain rfl rfl]
    simp [renewFooters, isBlank]
  have hfirst : footedLines [rule] = sectionLines ++ [[]] ++ [backToTop, [], rule] := by
    simp [footedLines]
  generalize keptLines [2] rule (some 2) 0 (backToTop :: [] :: tail) = kept at hrenewed ⊢
  rw [hrenewed, hfirst, textLines_append, textLines_append (sectionLines ++ [[]])] at h
  -- The new footer alone is as long as what the first pass wrote there.
  have hplaced := congrArg List.length (List.append_cancel_left h)
  have hle := le_length_placeFooters (·.splitOn '\n') [2] rule [2] true kept
  by_contra hne
  have hpos : 0 < (textLines kept).length := List.length_pos_iff.mpr (textLines_ne_nil hne)
  simp only [textLines] at hplaced hpos
  simp only [List.length_singleton, Nat.one_mul] at hle
  omega

/-- A rule line under which a note of one section settles is read as blank lines, rule lines and
links that open and close no table of contents, and the last of them is not blank. -/
theorem of_settled_section (hrule : ruleLine rule = rule) (hnormal : options.normalized = { rule })
    (h : arrange (arrange "# T\n## A" "n" options) "n" options = arrange "# T\n## A" "n" options) :
    (∀ line ∈ withoutAnchors (splitLines rule),
      (isStartMarker line = false ∧ isBareEndMarker line = false) ∧
        (isBlank line = true ∨ isMarkLine rule line = true ∨ isFooterLine line = true)) ∧
      ∃ last ∈ (withoutAnchors (splitLines rule)).getLast?, isBlank last = false := by
  have hlines := textLines_section hrule hnormal h
  have hfeed : ∀ line ∈ withoutAnchors (splitLines rule), '\n' ∉ line :=
    fun line hline => not_mem_of_mem_splitLines (mem_withoutAnchors hline)
  generalize withoutAnchors (splitLines rule) = tail at hlines hfeed ⊢
  have hcurrent := isTocCurrent_footedLines hfeed hlines
  rw [ensureToc_of_isTocCurrent (hasSections_footedLines tail) hcurrent] at hlines
  obtain ⟨hall, hlast⟩ := of_keptLines_eq_nil (keptLines_eq_nil_of_settled hlines)
  exact ⟨fun line hline => ⟨isQuiet_of_isTocCurrent hcurrent line hline, hall line hline⟩, hlast⟩

/-! ### Text below the title -/

/-- The lines of a note with a section above its title and text below it, with its table of
contents. -/
def upperLines : Buffer :=
  ["## A".toList, "# T".toList, [], topAnchor, []] ++
    (startMarkerLines ++ tocBody ["## A".toList] defaultDepth ++ endMarkerLines) ++ [[], "x".toList]

/-- These lines with the footer of the title's section. -/
def upperNote (rule : Line) : Buffer :=
  upperLines ++ [[], backToTop, [], rule]

/-- What stands below the anchor of these lines, through the text. -/
def belowUpper : Buffer :=
  [] :: (tocListing ["## A".toList] defaultDepth ++ [[], "x".toList])

theorem isFresh_upper : IsFresh (splitLines "## A\n# T\nx".toList) :=
  ⟨by decide, by decide, by decide, by decide⟩

theorem upperLines_eq_title :
    upperLines = ["## A".toList] ++ "# T".toList :: [] :: topAnchor :: belowUpper := by
  simp [upperLines, belowUpper, tocListing_eq]

theorem upperNote_eq_title (rule : Line) : upperNote rule = ["## A".toList] ++
    "# T".toList :: [] :: topAnchor :: (belowUpper ++ [[], backToTop, [], rule]) := by
  rw [upperNote, upperLines_eq_title]
  rfl

theorem cleanLine_of_mem_upperNote (hrule : CleanLine rule) (h : line ∈ upperNote rule) :
    CleanLine line := by
  have hfixed : ∀ line ∈ upperLines ++ [[], backToTop, []],
      '\n' ∉ line ∧ line.getLast? ≠ some '\r' := by
    decide
  have hparts : upperNote rule = (upperLines ++ [[], backToTop, []]) ++ [rule] := by
    simp [upperNote]
  rw [hparts] at h
  rcases List.mem_append.mp h with h | h
  · exact hfixed line h
  · rwa [List.mem_singleton.mp h]

theorem relined_upperNote (hrule : CleanLine rule) : relined (upperNote rule) = upperNote rule := by
  have hclean := fun line (hline : line ∈ upperNote rule) => cleanLine_of_mem_upperNote hrule hline
  exact relined_eq_self (by simp [upperNote]) ⟨fun line hline => (hclean line hline).1,
    fun line hline => (hclean line ((List.dropLast_prefix _).subset hline)).2⟩

theorem listedLines_upper (rule : Line) :
    listedLines (splitLines "## A\n# T\nx".toList) "n".toList { rule, footerLevels := [1] } =
      upperLines := by
  have h : listedLines (splitLines "## A\n# T\nx".toList) "n".toList {} = upperLines := by
    decide
  exact h

theorem renewFooters_upperLines (rule : Line) :
    renewFooters [1] rule [] false upperLines = upperNote rule := by
  have hplain : ∀ line ∈ belowUpper, isHeadingLine line = false ∧ isFooterLine line = false := by
    decide
  have hlast : (belowUpper.getLast?.map isBlank).getD false = false := by decide
  have hbase : baseOpened [1] = [1] := by decide
  have habove : renewFooters [1] rule [] false ["## A".toList] = ["## A".toList] := by rfl
  have hbelow : renewFooters [1] rule [1] false [] = [[], backToTop, [], rule] := by rfl
  rw [upperNote_eq_title, upperLines_eq_title, ← List.append_nil belowUpper,
    renewFooters_anchored headingOfLine?_sectionTitle, hbase, habove,
    renewFooters_append_of_plain (fun line hline => (hplain line hline).1)
      fun line hline => (hplain line hline).2,
    hlast, hbelow, List.append_nil]

theorem arrangeLines_upper (hrule : ruleLine rule = rule) :
    arrangeLines (splitLines "## A\n# T\nx".toList) "n".toList { rule, footerLevels := [1] } =
      upperNote rule := by
  rw [arrangeLines_eq, listedLines_upper]
  show renewFooters [1] (ruleLine rule) [] false upperLines = upperNote rule
  rw [hrule, renewFooters_upperLines]

/-- The first stages of the second pass find nothing to do. -/
theorem arrangeTop_upperNote (hanchor : rule ≠ topAnchor) :
    arrangeTop (upperNote rule) "n".toList { rule, footerLevels := [1] } = (upperNote rule, 3) := by
  have hnone : findFrontmatter (upperNote rule) = none := by
    apply findFrontmatter_eq_none
    intro line hline
    rw [upperNote_eq_title, List.singleton_append, List.dropWhile_cons_of_neg (by decide)] at hline
    obtain rfl := Option.some.inj hline
    decide
  have hbelow : topAnchor ∉ belowUpper ++ [[], backToTop, [], rule] := by
    have hfixed : topAnchor ∉ belowUpper ++ [[], backToTop, []] := by decide
    have hparts : belowUpper ++ [[], backToTop, [], rule] =
        (belowUpper ++ [[], backToTop, []]) ++ [rule] := by
      simp
    rw [hparts, List.mem_append, List.mem_singleton, not_or]
    exact ⟨hfixed, Ne.symm hanchor⟩
  have hanchored : AnchoredAt (upperNote rule)
      ({ rule, footerLevels := [1] } : Options).createFrontmatter ["## A".toList] "# T".toList
        (belowUpper ++ [[], backToTop, [], rule]) :=
    ⟨upperNote_eq_title rule, ⟨_, headingOfLine?_sectionTitle⟩,
      ⟨0, titleStart_of_none hnone, Nat.zero_le _, by decide⟩, by decide, hbelow,
      by simp [belowUpper]⟩
  exact hanchored.arrangeTop_eq

/-- A rule line that mentions an end marker closes the table of contents, and the text of the note
goes with it. -/
theorem withoutToc_upperNote (hheading : isHeadingLine rule = false)
    (hend : isEndMarker rule = true) :
    withoutToc (upperNote rule) = ["## A".toList, "# T".toList, [], topAnchor, []] := by
  have hfront : ∀ line ∈ ["## A".toList, "# T".toList, [], topAnchor, []],
      isStartMarker line = false ∧ isBareEndMarker line = false := by
    decide
  obtain ⟨body, hbody, hparts⟩ : ∃ body : Buffer,
      (∀ line ∈ body, isHeadingLine line = false ∧ isStartMarker line = false) ∧
        upperNote rule = ["## A".toList, "# T".toList, [], topAnchor, []] ++
          "<!-- MDNAV:TOC START -->".toList ::
            "%% MDNAV:TOC START %%".toList :: (body ++ [rule]) := by
    refine ⟨tocBody ["## A".toList] defaultDepth ++ endMarkerLines ++
      [[], "x".toList, [], backToTop, []], by decide, ?_⟩
    simp [upperNote, upperLines, startMarkerLines]
  -- The end of a block is the last end marker above the next heading: here, the rule line.
  have hreach : blockReach false (body ++ [rule]) = body.length + 1 :=
    blockReach_append_end hbody hheading hend false
  have hblock : blockReach false ("%% MDNAV:TOC START %%".toList :: (body ++ [rule])) =
      body.length + 1 + 1 := by
    rw [blockReach_cons_start (by decide) (by decide) (by rw [hreach]; exact Nat.succ_ne_zero _),
      hreach]
  rw [hparts, withoutToc_append (fun line hline => (hfront line hline).1)
      fun line hline => (hfront line hline).2,
    withoutToc_cons_start (by decide), hblock, List.drop_of_length_le (by simp)]
  rfl

/-- Under a rule line that mentions an end marker, the text below the title is lost. -/
theorem not_mem_arrangeLines_upperNote (hrule : ruleLine rule = rule) (hanchor : rule ≠ topAnchor)
    (hend : isEndMarker rule = true) :
    "x".toList ∉ arrangeLines (upperNote rule) "n".toList { rule, footerLevels := [1] } := by
  have hheading : isHeadingLine rule = false := hrule ▸ isHeadingLine_ruleLine rule
  have hlink : "x".toList ≠ backToTop := by decide
  intro hmem
  rw [arrangeLines_eq, listedLines, arrangeTop_upperNote hanchor] at hmem
  rcases mem_renewFooters hmem with hmem | hmem | hmem | hmem
  · rcases mem_ensureToc hmem with hmem | hmem
    · rw [withoutToc_upperNote hheading hend] at hmem
      revert hmem
      decide
    · rcases List.mem_append.mp hmem with hmem | hmem
      · have hhead := head?_of_mem_tocListing hmem
        revert hhead
        decide
      · revert hmem
        decide
  · cases hmem
  · exact hlink hmem
  · have hx : rule = "x".toList := (hmem.trans hrule).symm
    rw [hx] at hend
    revert hend
    decide

/-- A note with text below its title settles only under a rule line that mentions no end marker. -/
theorem isEndMarker_eq_false_of_settled (hrule : ruleLine rule = rule) (hclean : CleanLine rule)
    (hanchor : rule ≠ topAnchor) (hnormal : options.normalized = { rule, footerLevels := [1] })
    (h : arrange (arrange "## A\n# T\nx" "n" options) "n" options =
      arrange "## A\n# T\nx" "n" options) : isEndMarker rule = false := by
  by_contra hend
  have hfirst : arrangeLines (splitLines "## A\n# T\nx".toList) "n".toList options.normalized =
      upperNote rule := by
    rw [hnormal]
    exact arrangeLines_upper hrule
  have hagain : 1 < (outline (relined (upperNote rule))).length := by
    have htwo : 1 < (outline upperLines).length := by decide
    rw [relined_upperNote hclean, upperNote, outline_append, List.length_append]
    omega
  have hlines := textLines_eq_of_settled (by decide) hfirst hagain rfl h
  rw [relined_upperNote hclean, hnormal] at hlines
  have hnote : ∀ line ∈ upperNote rule, '\n' ∉ line :=
    fun line hline => (cleanLine_of_mem_upperNote hclean hline).1
  have hsecond : ∀ line ∈ arrangeLines (upperNote rule) "n".toList { rule, footerLevels := [1] },
      '\n' ∉ line := by
    intro line hline
    rcases newline_not_mem_of_mem_arrangeLines hnote (by decide) hline with hline | rfl
    · exact hline
    · show '\n' ∉ ruleLine rule
      rw [hrule]
      exact hclean.1
  rw [textLines_of_newline hnote, textLines_of_newline hsecond] at hlines
  -- A rule that ends a block takes the line `x` with it, but the first run has kept that line.
  refine not_mem_arrangeLines_upperNote hrule hanchor (by simpa using hend) ?_
  rw [hlines]
  simp [upperNote, upperLines]

/-! ### The rule lines that converge -/

/-- A rule line of several lines lasts if a note of one section settles under it. -/
theorem lastingRule_links_of_settled (hrule : ruleLine rule = rule) (hfeed : '\n' ∈ rule)
    (hnormal : options.normalized = { rule })
    (h : arrange (arrange "# T\n## A" "n" options) "n" options = arrange "# T\n## A" "n" options) :
    LastingRule rule := by
  obtain ⟨hall, last, hlast, hvisible⟩ := of_settled_section hrule hnormal h
  have hlinks : ∀ line ∈ withoutAnchors (splitLines rule),
      isBlank line = true ∨ isFooterLine line = true := by
    intro line hline
    have hmark := isMarkLine_eq_false_of_newline hfeed
      (not_mem_of_mem_splitLines (mem_withoutAnchors hline))
    rcases (hall line hline).2 with hblank | hrule | hfooter
    · exact Or.inl hblank
    · rw [hmark] at hrule
      cases hrule
    · exact Or.inr hfooter
  refine LastingRule.links hfeed hlinks ?_
  rw [Option.mem_def.mp hlast, Option.any_some]
  rcases hlinks last (List.mem_of_getLast? hlast) with hblank | hfooter
  · rw [hvisible] at hblank
    cases hblank
  · exact hfooter

/-- A rule line of one line lasts if a note of one section settles under it and, where it is not
the anchor, it mentions no end marker. -/
theorem lastingRule_single_of_settled (hrule : ruleLine rule = rule) (hone : '\n' ∉ rule)
    (hnormal : options.normalized = { rule })
    (h : arrange (arrange "# T\n## A" "n" options) "n" options = arrange "# T\n## A" "n" options)
    (hend : rule ≠ topAnchor → isEndMarker rule = false) : LastingRule rule := by
  obtain ⟨hall, last, hlast, -⟩ := of_settled_section hrule hnormal h
  rw [splitLines_of_not_mem hone] at hall hlast
  have hanchor : rule ≠ topAnchor := by
    rintro rfl
    cases hlast
  have hstart : isStartMarker rule = false := (hall rule (by simp [withoutAnchors, hanchor])).1.1
  exact LastingRule.single hone hanchor (isMarkerLine_eq_false_iff.mpr ⟨hstart, hend hanchor⟩)

/-- A rule line converges exactly if it lasts: if it is one line that is neither the anchor nor a
marker line, or if it is cut into blank lines and links of which one comes last. -/
theorem ruleConverges_iff (rule : String) :
    RuleConverges rule ↔ LastingRule (ruleLine (trimEnd rule.toList)) := by
  constructor
  · intro h
    have hused : ruleLine (ruleLine (trimEnd rule.toList)) = ruleLine (trimEnd rule.toList) :=
      ruleLine_usableRule { rule := rule.toList }
    have hreturn : (ruleLine (trimEnd rule.toList)).getLast? ≠ some '\r' :=
      getLast?_usableRule { rule := rule.toList }
    -- Two notes decide: one with a section below its title, and, for a rule line of one line, one
    -- whose text stands below its title, where an end marker takes it along.
    have hsection := h (.object [("hr", .string rule)]) { rule := rule.toList } "# T\n## A" "n"
      rfl rfl plainName_section (by decide) isFresh_section
    by_cases hfeed : '\n' ∈ ruleLine (trimEnd rule.toList)
    · exact lastingRule_links_of_settled hused hfeed rfl hsection
    · have hupper := h (.object [("hr", .string rule), ("footer_levels", .number (.integer 1))])
        { rule := rule.toList, footerLevels := [1] } "## A\n# T\nx" "n" rfl rfl plainName_section
        (by decide) isFresh_upper
      exact lastingRule_single_of_settled hused hfeed rfl hsection fun hanchor =>
        isEndMarker_eq_false_of_settled hused ⟨hfeed, hreturn⟩ hanchor rfl hupper
  · intro h value options text name _ hrule hname hreturn hfresh
    refine arrange_arrange_of_lasting text name options ?_ hname hreturn hfresh
    show LastingRule (ruleLine (trimEnd options.rule))
    rwa [hrule]

/-- An anchor is accepted as a rule line, and does not converge: the second pass takes the written
rule line for a stray anchor, so that an empty line stays where the footer was. -/
theorem arrange_arrange_ne_of_anchor_rule :
    Options.ofJson (.object [("hr", .string "^top")]) = .ok { rule := topAnchor } ∧
      PlainName "n".toList ∧ '\r' ∉ "# T\n## A".toList ∧ IsFresh (splitLines "# T\n## A".toList) ∧
        arrange (arrange "# T\n## A" "n" { rule := topAnchor }) "n" { rule := topAnchor } ≠
          arrange "# T\n## A" "n" { rule := topAnchor } := by
  refine ⟨rfl, plainName_section, by decide, isFresh_section, fun h => ?_⟩
  have hrule : ruleLine topAnchor = topAnchor := by decide
  have hnone : (withoutAnchors (splitLines topAnchor)).getLast? = none := by decide
  obtain ⟨-, last, hlast, -⟩ := of_settled_section hrule rfl h
  rw [hnone] at hlast
  cases hlast

end Waymark
