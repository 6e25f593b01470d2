import Waymark.Proofs.Idempotence
import Waymark.Proofs.RuleLines

/-!
# Arranging a fresh note twice

A note is fresh if it holds nothing that an earlier pass could have written. Its first pass puts in
the title, the anchor, the table of contents and the footers. The second pass reads the same lines,
but for the rule lines, which it may read as several. Where the rule line lasts, these go with the
links above them, so that the same footers are put in again.

## Main definitions

* `IsFresh` — a buffer without fences, anchors, marker lines and links of footers

## Main results

* `IsFresh.arrangeLines_relined` — what is written for a fresh note comes out the same
* `arrange_arrange_of_lasting` — a fresh note is settled after one pass where the rule line lasts
-/

namespace Waymark

/-- No line of the buffer could have been written by an earlier pass. -/
structure IsFresh (lines : Buffer) : Prop where
  /-- No line mentions a marker. -/
  noMarker : ∀ line ∈ lines, isMarkerLine line = false
  /-- No line is an anchor. -/
  noAnchor : topAnchor ∉ lines
  /-- No line is the link of a footer. -/
  noFooter : ∀ line ∈ lines, isFooterLine line = false
  /-- No line is a fence. -/
  noFence : ∀ line ∈ lines, isFence line = false

variable {lines above below tail : Buffer} {line title rule : Line} {levels : List Nat}
variable {cover : Option Nat} {name text : List Char} {options : Options} {pretty : Bool}

/-! ### Lines without carriage returns -/

theorem unifyLineEnds_of_no_return (h : '\r' ∉ text) : unifyLineEnds text = text := by
  induction text with
  | nil => rfl
  | cons c text ih =>
    rw [unifyLineEnds, if_neg fun hpair => List.ne_of_not_mem_cons h hpair.1.symm,
      ih (List.not_mem_of_not_mem_cons h)]

theorem mem_joinLines {c : Char} (hline : line ∈ lines) (hc : c ∈ line) : c ∈ joinLines lines := by
  induction lines with
  | nil => cases hline
  | cons first rest ih =>
    by_cases hrest : rest = []
    · rw [hrest] at hline ⊢
      rwa [joinLines_singleton, ← List.mem_singleton.mp hline]
    · rw [joinLines_cons first hrest]
      rcases List.mem_cons.mp hline with rfl | hline
      · exact List.mem_append_left _ hc
      · exact List.mem_append_right _ (List.mem_cons_of_mem _ (ih hline))

theorem cleanLine_of_mem_splitLines (h : '\r' ∉ text) (hline : line ∈ splitLines text) :
    CleanLine line := by
  refine ⟨not_mem_of_mem_splitLines hline, fun hlast => h ?_⟩
  have hjoin : joinLines (splitLines text) = text := by
    rw [splitLines, joinLines_splitOn, unifyLineEnds_of_no_return h]
  rw [← hjoin]
  exact mem_joinLines hline (List.mem_of_getLast? hlast)

/-- A buffer whose lines end visibly is read line by line. -/
theorem relined_eq_flatMap (hne : lines ≠ []) (h : ∀ line ∈ lines, line.getLast? ≠ some '\r') :
    relined lines = lines.flatMap closedLines := by
  rcases List.eq_nil_or_concat lines with rfl | ⟨front, last, rfl⟩
  · exact absurd rfl hne
  · rw [List.concat_eq_append, relined_append front (List.cons_ne_nil last []), relined,
      ← closedLines_eq_splitLines (h last (by simp))]
    simp

/-! ### The first pass -/

theorem noOldFooter_of_forall (h : ∀ line ∈ lines, isFooterLine line = false) :
    NoOldFooter levels cover lines := by
  induction lines generalizing cover with
  | nil => trivial
  | cons line lines ih =>
    obtain ⟨hline, hlines⟩ := List.forall_mem_cons.mp h
    exact ⟨Or.inr hline, ih hlines⟩

/-- Where no line is the link of a footer, all lines stay. -/
theorem keptLines_eq_self (h : ∀ line ∈ lines, isFooterLine line = false) :
    keptLines levels rule cover 0 lines = lines := by
  have hkept : keptLines levels rule cover 0 (lines ++ []) = lines ++ [] :=
    keptLines_append (noOldFooter_of_forall h) _ []
  rwa [List.append_nil] at hkept

theorem IsFresh.findFrontmatter_eq_none (h : IsFresh lines) : findFrontmatter lines = none := by
  refine Waymark.findFrontmatter_eq_none fun line hline => h.noFence line ?_
  exact (List.dropWhile_sublist _).subset (List.mem_of_mem_head? hline)

/-- The lines up to the stage of the anchor are clean and mention no marker. -/
theorem IsFresh.clean_and_noMarker (h : IsFresh lines) (hclean : ∀ line ∈ lines, CleanLine line)
    (hname : PlainName name) (hline : line ∈ lines ∨ line ∈ topLines name options) :
    CleanLine line ∧ isMarkerLine line = false := by
  rcases hline with hline | hline
  · exact ⟨hclean line hline, h.noMarker line hline⟩
  · exact ⟨cleanLine_of_mem_topLines hname.1 hname.2.1 hline,
      isMarkerLine_eq_false_of_mem_topLines hname.2.2.1 hname.2.2.2 hline⟩

/-- The first pass finds no footer to take out. -/
theorem IsFresh.noFooter_listedLines (h : IsFresh lines)
    (hline : line ∈ listedLines lines name options) : isFooterLine line = false := by
  rcases mem_listedLines hline with hline | hline | hline
  · exact h.noFooter line hline
  · simp only [topLines, List.mem_cons, List.not_mem_nil, or_false] at hline
    rcases hline with rfl | rfl | rfl | rfl
    · decide
    · decide
    · decide
    · exact isFooterLine_eq_false_of_head (by simp [titleLine])
  · rcases List.mem_append.mp hline with hline | hline
    · exact isFooterLine_eq_false_of_mem_tocListing hline
    · rw [List.mem_singleton.mp hline]
      decide

/-- The first pass puts footers in and takes none out. -/
theorem IsFresh.arrangeLines_eq (h : IsFresh lines) (name : List Char) (options : Options) :
    arrangeLines lines name options =
      placeFooters options.footerLevels (ruleLine options.rule) [] false
        (listedLines lines name options) := by
  rw [Waymark.arrangeLines_eq, renewFooters, keptLines_eq_self fun _ => h.noFooter_listedLines]

/-! ### The search for the title -/

/-- The first visible line is read as the first one again. -/
theorem head?_dropWhile_flatMap
    (hblank : ∀ line ∈ lines, isBlank line = true → closedLines line = [line])
    (hfirst : ∀ line ∈ (lines.dropWhile isBlank).head?, closedLines line = [line]) :
    ((lines.flatMap closedLines).dropWhile isBlank).head? = (lines.dropWhile isBlank).head? := by
  induction lines with
  | nil => rfl
  | cons line lines ih =>
    rw [List.flatMap_cons]
    by_cases hline : isBlank line = true
    · rw [hblank line List.mem_cons_self hline, List.singleton_append,
        List.dropWhile_cons_of_pos hline, List.dropWhile_cons_of_pos hline]
      rw [List.dropWhile_cons_of_pos hline] at hfirst
      exact ih (fun l hl => hblank l (List.mem_cons_of_mem _ hl)) hfirst
    · rw [List.dropWhile_cons_of_neg hline] at hfirst ⊢
      rw [hfirst line rfl, List.singleton_append, List.dropWhile_cons_of_neg hline]
      rfl

/-- No title is read from the lines that were written above the title. -/
theorem titleOfLine?_of_mem_closedLines
    (hrule : ∀ line ∈ closedLines rule, isHeadingLine line = false)
    (hclean : ∀ line ∈ above, CleanLine line) (habove : ∀ line ∈ above, titleOfLine? line = none)
    (h : line ∈ (settledAbove levels rule above).flatMap closedLines) :
    titleOfLine? line = none := by
  obtain ⟨source, hsource, hline⟩ := List.mem_flatMap.mp h
  rcases mem_renewFooters hsource with hsource | rfl | rfl | rfl
  · have hmem : source ∈ above := mem_withoutAnchors ((withoutToc_sublist _).subset hsource)
    rw [closedLines_of_clean (hclean source hmem)] at hline
    rw [List.mem_singleton.mp hline]
    exact habove source hmem
  · rw [List.mem_singleton.mp hline]
    rfl
  · rw [closedLines_of_clean cleanLine_backToTop] at hline
    rw [List.mem_singleton.mp hline]
    exact titleOfLine?_eq_none_of_isHeadingLine isHeadingLine_backToTop
  · exact titleOfLine?_eq_none_of_isHeadingLine (hrule line hline)

theorem rule_or_clean_of_mem_settledAbove (hclean : ∀ line ∈ above, CleanLine line) :
    ∀ line ∈ settledAbove levels rule above, line = rule ∨ CleanLine line := by
  refine forall_mem_renewFooters (Or.inr cleanLine_nil) (Or.inr cleanLine_backToTop) (Or.inl rfl)
    fun line hline => Or.inr (hclean line ?_)
  exact mem_withoutAnchors ((withoutToc_sublist _).subset hline)

/-- No line of a fresh note with a title is taken for frontmatter, an anchor or a marker. -/
theorem IsFresh.plain_of_mem_entitled (h : IsFresh lines) (hname : PlainName name)
    (hcut : Entitled lines 0 name pretty above title below)
    (hline : line ∈ above ++ title :: below) :
    isFence line = false ∧ line ≠ topAnchor ∧ isMarkerLine line = false := by
  rcases hcut.mem hline with hline | rfl | rfl
  · exact ⟨h.noFence line hline, fun heq => h.noAnchor (heq ▸ hline), h.noMarker line hline⟩
  · decide
  · refine ⟨?_, by simp [titleLine, topAnchor], isMarkerLine_titleLine hname.2.2.1 hname.2.2.2 _⟩
    by_contra hfence
    have hhead := head?_of_isFence (by simpa using hfence)
    revert hhead
    simp [titleLine]

section Search

variable (hfresh : IsFresh lines) (hclean : ∀ line ∈ lines, CleanLine line)
variable (hname : PlainName name)
variable (hcut : Entitled (titleStart lines options.createFrontmatter).1
  (titleStart lines options.createFrontmatter).2 name options.prettifyTitle above title below)
include hfresh hclean hname hcut

/-- The lines around the title are clean and mention no marker. -/
theorem IsFresh.clean_and_noMarker_of_entitled (hline : line ∈ above ++ title :: below) :
    CleanLine line ∧ isMarkerLine line = false :=
  hfresh.clean_and_noMarker hclean hname (hcut.mem_or_mem_topLines hline)

variable (htitle : isHeadingLine title = true)
variable (hblank : isBlank rule = false) (htail : ∀ line ∈ tail, line = rule ∨ CleanLine line)
include htitle hblank htail

/-- A note that neither has nor gets a frontmatter block still has none when it is read again. -/
theorem IsFresh.findFrontmatter_closedLines (hcreate : options.createFrontmatter = false) :
    findFrontmatter ((settledAbove levels rule above ++ title :: tail).flatMap closedLines) =
      none := by
  have hall : ∀ line ∈ above ++ title :: below, CleanLine line := fun _ hline =>
    (hfresh.clean_and_noMarker_of_entitled hclean hname hcut hline).1
  rw [hcreate, titleStart_of_none hfresh.findFrontmatter_eq_none] at hcut
  have hplain : ∀ line ∈ above ++ title :: below,
      isFence line = false ∧ line ≠ topAnchor ∧ isMarkerLine line = false :=
    fun _ => hfresh.plain_of_mem_entitled hname hcut
  -- The first visible line of the note is the first one that is written, and is no fence.
  have hfirst : ((settledAbove levels rule above ++ title :: tail).dropWhile isBlank).head? =
      ((above ++ title :: below).dropWhile isBlank).head? :=
    dropWhile_settledAbove (fun line hline => (hplain line (List.mem_append_left _
      ((List.dropWhile_sublist _).subset (List.mem_of_mem_head? hline)))).2)
      (isBlank_eq_false_of_isHeadingLine htitle)
  have hmem : ∀ line ∈ ((above ++ title :: below).dropWhile isBlank).head?,
      line ∈ above ++ title :: below := fun line hline =>
    (List.dropWhile_sublist _).subset (List.mem_of_mem_head? hline)
  apply Waymark.findFrontmatter_eq_none
  intro line hline
  rw [head?_dropWhile_flatMap, hfirst] at hline
  · exact (hplain line (hmem line hline)).1
  · intro l hl hlblank
    have hsplit : l = rule ∨ CleanLine l := by
      rcases List.mem_append.mp hl with hl | hl
      · exact rule_or_clean_of_mem_settledAbove
          (fun l hl => hall l (List.mem_append_left _ hl)) l hl
      · rcases List.mem_cons.mp hl with rfl | hl
        · exact Or.inr (hall l (by simp))
        · exact htail l hl
    rcases hsplit with rfl | hsplit
    · rw [hblank] at hlblank
      cases hlblank
    · exact closedLines_of_clean hsplit
  · intro l hl
    rw [hfirst] at hl
    exact closedLines_of_clean (hall l (hmem l hl))

/-- The search for the title starts again above the title and below all other titles there are. -/
theorem IsFresh.exists_titleStart_closedLines
    (hrule : ∀ line ∈ closedLines rule, isHeadingLine line = false) :
    ∃ start, titleStart ((settledAbove levels rule above ++ title :: tail).flatMap closedLines)
        options.createFrontmatter =
          ((settledAbove levels rule above ++ title :: tail).flatMap closedLines, start) ∧
      start ≤ ((settledAbove levels rule above).flatMap closedLines).length ∧
        ∀ line ∈ ((settledAbove levels rule above).flatMap closedLines).drop start,
          titleOfLine? line = none := by
  have hall : ∀ line ∈ above ++ title :: below, CleanLine line := fun _ hline =>
    (hfresh.clean_and_noMarker_of_entitled hclean hname hcut hline).1
  cases hcreate : options.createFrontmatter with
  | true =>
    rw [hcreate, titleStart_of_create hfresh.findFrontmatter_eq_none] at hcut
    have hbelow : Entitled ([fenceLine, fenceLine] ++ [] :: lines)
        [fenceLine, fenceLine].length name options.prettifyTitle above title below := hcut
    obtain ⟨middle, rfl, hmiddle⟩ := hbelow.exists_above
    have hsettled : settledAbove levels rule ([fenceLine, fenceLine] ++ middle) =
        [fenceLine, fenceLine] ++ settledAbove levels rule middle :=
      settledAbove_append (by decide) middle
    have hfences : [fenceLine, fenceLine].flatMap closedLines = [fenceLine, fenceLine] := by decide
    -- The new fences come first again, and the search starts below them.
    refine ⟨2, ?_, ?_, ?_⟩
    · rw [hsettled, List.append_assoc, List.flatMap_append, hfences]
      exact titleStart_append endsFrontmatter_fences _ _
    · rw [hsettled, List.flatMap_append, hfences]
      simp
    · rw [hsettled, List.flatMap_append, hfences]
      exact fun line => titleOfLine?_of_mem_closedLines hrule
        (fun l hl => hall l (by simp [hl])) hmiddle
  | false =>
    have hnone : findFrontmatter
        ((settledAbove levels rule above ++ title :: tail).flatMap closedLines) = none :=
      hfresh.findFrontmatter_closedLines hclean hname hcut htitle hblank htail hcreate
    rw [hcreate, titleStart_of_none hfresh.findFrontmatter_eq_none] at hcut
    have hbelow : Entitled ([] ++ lines) ([] : Buffer).length name options.prettifyTitle above
        title below := hcut
    obtain ⟨middle, rfl, hmiddle⟩ := hbelow.exists_above
    exact ⟨0, titleStart_of_none hnone, Nat.zero_le _, fun line => titleOfLine?_of_mem_closedLines
      hrule (fun l hl => hall l (List.mem_append_left _ hl)) hmiddle⟩

end Search

/-! ### The second pass -/

/-- Where no line mentions a marker, none is seen when footers are put in. -/
theorem noMarker_seenLine (hrule : ∀ l ∈ seenLine rule, isMarkerLine l = false)
    (h : ∀ line ∈ lines, CleanLine line ∧ isMarkerLine line = false) {opened : List Nat}
    {endsBlank : Bool} :
    ∀ line ∈ (renewFooters levels rule opened endsBlank lines).flatMap seenLine,
      isMarkerLine line = false := by
  have hall : ∀ source ∈ renewFooters levels rule opened endsBlank lines,
      ∀ l ∈ seenLine source, isMarkerLine l = false := by
    refine forall_mem_renewFooters (by decide) (by decide) hrule fun source hsource l hl => ?_
    rw [seenLine_of_clean (h source hsource).1] at hl
    rw [List.mem_singleton.mp hl]
    exact (h source hsource).2
  intro line hline
  obtain ⟨source, hsource, hline⟩ := List.mem_flatMap.mp hline
  exact hall source hsource line hline

section Second

variable (hclean : ∀ line ∈ lines, CleanLine line) (hname : PlainName name)
variable (hfresh : IsFresh lines) (hrule : LastingRule (ruleLine options.rule))
variable (hreturn : (ruleLine options.rule).getLast? ≠ some '\r')
variable (hblank : isBlank (ruleLine options.rule) = false)
include hclean hname

/-- Only the rule line may be written in several lines. -/
theorem rule_or_clean_of_mem_arrangeLines : ∀ line ∈ arrangeLines lines name options,
    line = ruleLine options.rule ∨ CleanLine line := by
  rw [Waymark.arrangeLines_eq]
  exact forall_mem_renewFooters (Or.inr cleanLine_nil) (Or.inr cleanLine_backToTop) (Or.inl rfl)
    fun _ hline => Or.inr (cleanLine_of_mem_listedLines hclean hname.1 hname.2.1 hline)

include hfresh hrule hreturn

/-- The headings that a later pass sees are those of the note and its title. -/
theorem IsFresh.outline_flatMap_seenLine :
    outline ((arrangeLines lines name options).flatMap seenLine) =
      outline (arrangeTop lines name options).1 := by
  have hheading := isHeadingLine_ruleLine options.rule
  have hline : ∀ line ∈ arrangeLines lines name options,
      outline (seenLine line) = outline [line] := by
    intro line hline
    rcases rule_or_clean_of_mem_arrangeLines hclean hname line hline with rfl | hline
    · have hnone : ∀ line ∈ [ruleLine options.rule], isHeadingLine line = false := by
        simpa using hheading
      rw [outline_eq_nil hnone, seenLine_of_ne hrule.ne_topAnchor]
      exact outline_eq_nil fun l hl =>
        hrule.isHeadingLine_eq_false hheading hreturn (mem_withoutAnchors hl)
    · rw [seenLine_of_clean hline]
  rw [outline_flatMap, List.flatMap_congr hline, ← outline_eq_flatMap, hfresh.arrangeLines_eq,
    outline_placeFooters hheading, listedLines, outline_ensureToc, outline_withoutToc_eq_iff]
  exact fun line hline _ => (isMarkerLine_eq_false_iff.mp
    (hfresh.clean_and_noMarker hclean hname (mem_arrangeTop hline)).2).1

end Second

/-- The parts of what is written for a fresh note: the lines above its title, the title, and the
lines below its anchor as the stage of the footers finds them. -/
structure WrittenParts (lines : Buffer) (name : List Char) (options : Options) (above : Buffer)
    (title : Line) (below tail : Buffer) : Prop where
  /-- The title cuts the note. -/
  cut : Entitled (titleStart lines options.createFrontmatter).1
    (titleStart lines options.createFrontmatter).2 name options.prettifyTitle above title below
  /-- The title is a heading of level one. -/
  entitled : ∃ text, headingOfLine? title = some (1, text)
  /-- The parts are written one after the other. -/
  written : arrangeLines lines name options =
    settledAbove options.footerLevels (ruleLine options.rule) above ++ title :: [] :: topAnchor ::
      renewFooters options.footerLevels (ruleLine options.rule) (baseOpened options.footerLevels)
        false tail
  /-- No second anchor stands below. -/
  noneBelow : topAnchor ∉ tail
  /-- An empty line stands below the anchor, if any does. -/
  gap : ∀ line ∈ tail.head?, line = []
  /-- The lines around the title are clean, and none of them mentions a marker. -/
  quietAbove : ∀ line ∈ above ++ title :: below, CleanLine line ∧ isMarkerLine line = false
  /-- The table of contents stands below the anchor if there is anything to list. -/
  listed : (hasSections (headings (arrangeTop lines name options).1)
        (effectiveDepth options.maxDepth) = false ∧
      ∀ line ∈ tail, CleanLine line ∧ isMarkerLine line = false) ∨
    (hasSections (headings (arrangeTop lines name options).1)
        (effectiveDepth options.maxDepth) = true ∧ ∃ after,
      tail = [] :: (tocListing (arrangeTop lines name options).1 options.maxDepth ++ after) ∧
        ∀ line ∈ after, CleanLine line ∧ isMarkerLine line = false)

section Parts

variable (hclean : ∀ line ∈ lines, CleanLine line) (hname : PlainName name)
variable (hfresh : IsFresh lines)
include hclean hname hfresh

theorem IsFresh.exists_writtenParts (options : Options) :
    ∃ above title below tail, WrittenParts lines name options above title below tail := by
  obtain ⟨above, title, below, hcut, htop⟩ := arrangeTop_eq lines name options
  obtain ⟨text, htext⟩ := hcut.headingOfLine?_title hname.2.1
  have hgap := head?_ensureEmptyAt (withoutAnchors (belowGap below))
  have htailAnchor := topAnchor_not_mem_ensureEmptyAt (belowGap below)
  generalize ensureEmptyAt (withoutAnchors (belowGap below)) 0 = tail at htop hgap htailAnchor
  -- A line here comes from the note, or is a title or an anchor, and none of them is a marker.
  have hquiet : ∀ line ∈ withoutAnchors above ++ title :: [] :: topAnchor :: tail,
      CleanLine line ∧ isMarkerLine line = false := by
    intro line hline
    have hmem : line ∈ (arrangeTop lines name options).1 := by rwa [htop]
    exact hfresh.clean_and_noMarker hclean hname (mem_arrangeTop hmem)
  have hmark : isStartMarker title = false :=
    (isMarkerLine_eq_false_iff.mp (hquiet title (by simp)).2).1
  obtain ⟨tail', hout, hcases⟩ := exists_arrangeLines_of_arrangeTop htop htext hmark hgap
  refine ⟨above, title, below, tail', hcut, ⟨text, htext⟩, hout, ?_, ?_, ?_, ?_⟩
  · rcases hcases with ⟨-, rfl⟩ | ⟨-, after, rfl, -, -, hsource⟩
    · exact fun hmem => htailAnchor ((withoutToc_sublist _).subset hmem)
    · exact topAnchor_not_mem_listing htailAnchor hsource
  · rcases hcases with ⟨-, rfl⟩ | ⟨-, after, rfl, -, -, hsource⟩
    · exact head?_withoutToc hgap
    · simp
  · exact fun _ => hfresh.clean_and_noMarker_of_entitled hclean hname hcut
  · rcases hcases with ⟨hnone, rfl⟩ | ⟨hsome, after, rfl, -, -, hsource⟩
    · exact Or.inl ⟨hnone, fun line hline =>
        hquiet line (by simp [(withoutToc_sublist _).subset hline])⟩
    · refine Or.inr ⟨hsome, after, rfl, fun line hline => ?_⟩
      rcases hsource line hline with hmem | rfl
      · exact hquiet line (by simp [hmem])
      · exact ⟨cleanLine_nil, by decide⟩

end Parts

/-- Title and anchor are read as they were written, whatever the lines around them are read as. -/
theorem WrittenParts.flatMap_eq (h : WrittenParts lines name options above title below tail)
    {read : Line → Buffer} (hread : ∀ line, CleanLine line → read line = [line]) :
    (arrangeLines lines name options).flatMap read =
      (settledAbove options.footerLevels (ruleLine options.rule) above).flatMap read ++
        title :: [] :: topAnchor :: (renewFooters options.footerLevels (ruleLine options.rule)
          (baseOpened options.footerLevels) false tail).flatMap read := by
  rw [h.written, List.flatMap_append, List.flatMap_cons, List.flatMap_cons, List.flatMap_cons,
    hread title (h.quietAbove title (by simp)).1, hread [] cleanLine_nil,
    hread topAnchor cleanLine_topAnchor]
  rfl

section Settled

variable (h : WrittenParts lines name options above title below tail)
variable (hclean : ∀ line ∈ lines, CleanLine line) (hname : PlainName name)
variable (hfresh : IsFresh lines) (hrule : LastingRule (ruleLine options.rule))
variable (hreturn : (ruleLine options.rule).getLast? ≠ some '\r')
variable (hblank : isBlank (ruleLine options.rule) = false)
include h hclean hname hfresh hrule hreturn

include hblank in
/-- A second pass finds the title and the anchor where they are. -/
theorem WrittenParts.arrangeTop_relined :
    arrangeTop (relined (arrangeLines lines name options)) name options =
      ((arrangeLines lines name options).flatMap seenLine,
        ((settledAbove options.footerLevels (ruleLine options.rule) above).flatMap
          seenLine).length + 2) := by
  have hanchor := hrule.ne_topAnchor
  have hheading := isHeadingLine_ruleLine options.rule
  have hall : ∀ line ∈ arrangeLines lines name options,
      line = ruleLine options.rule ∨ CleanLine line :=
    rule_or_clean_of_mem_arrangeLines hclean hname
  -- Every line is read as if a line feed closed it, as none ends in a carriage return.
  have hlines : relined (arrangeLines lines name options) =
      (arrangeLines lines name options).flatMap closedLines := by
    refine relined_eq_flatMap (by rw [h.written]; simp) fun line hline => ?_
    rcases hall line hline with rfl | hline
    · exact hreturn
    · exact hline.2
  obtain ⟨text, htext⟩ := h.entitled
  obtain ⟨start, hsearch, hle, hfirst⟩ := hfresh.exists_titleStart_closedLines hclean hname h.cut
    (isHeadingLine_iff.mpr ⟨_, _, htext⟩) hblank
    (fun line hline => hall line
      (h.written ▸ List.mem_append_right _ (List.mem_cons_of_mem _ hline)))
    fun line => hrule.isHeadingLine_eq_false hheading hreturn
  rw [← h.written] at hsearch
  have hgap : ∀ line ∈ ((renewFooters options.footerLevels (ruleLine options.rule)
      (baseOpened options.footerLevels) false tail).flatMap closedLines).head?, line = [] := by
    have hhead := head?_renewFooters options.footerLevels (ruleLine options.rule)
      (baseOpened options.footerLevels) h.gap
    generalize renewFooters options.footerLevels (ruleLine options.rule)
      (baseOpened options.footerLevels) false tail = written at hhead
    cases written with
    | nil => simp
    | cons first written =>
      rw [hhead first rfl, List.flatMap_cons, closedLines_of_clean cleanLine_nil]
      simp
  rw [hlines, arrangeTop_of_parts (h.flatMap_eq fun _ => closedLines_of_clean) htext hsearch hle
    hfirst hgap, ← flatMap_seenLine (topAnchor_not_mem_settledAbove hanchor _ _),
    ← flatMap_seenLine (topAnchor_not_mem_renewFooters hanchor h.noneBelow),
    ← h.flatMap_eq fun _ => seenLine_of_clean]

/-- A second pass finds the table of contents settled. -/
theorem WrittenParts.tocSettled : TocSettled ((arrangeLines lines name options).flatMap seenLine)
    (((settledAbove options.footerLevels (ruleLine options.rule) above).flatMap
      seenLine).length + 4) options.maxDepth := by
  -- Read back, the note has the outline that was listed.
  have houtline := hfresh.outline_flatMap_seenLine hclean hname hrule hreturn
  have hsections := hasSections_congr houtline (effectiveDepth options.maxDepth)
  have hseen : ∀ l ∈ seenLine (ruleLine options.rule), isMarkerLine l = false :=
    fun _ => hrule.isMarkerLine_eq_false hreturn
  have htitle := (h.quietAbove title (by simp)).2
  have habove : ∀ line ∈ (settledAbove options.footerLevels (ruleLine options.rule) above).flatMap
      seenLine, isMarkerLine line = false :=
    noMarker_seenLine hseen fun line hline => h.quietAbove line
      (List.mem_append_left _ (mem_withoutAnchors ((withoutToc_sublist _).subset hline)))
  have hparts := h.flatMap_eq fun _ => seenLine_of_clean
  rcases h.listed with ⟨hnone, htail⟩ | ⟨hsome, after, htail, hafter⟩
  · refine Or.inl ⟨by rw [hsections, hnone], fun line hline => ?_⟩
    rw [hparts] at hline
    rcases List.mem_append.mp hline with hline | hline
    · exact habove line hline
    · simp only [List.mem_cons] at hline
      rcases hline with rfl | rfl | rfl | hline
      · exact htitle
      · decide
      · decide
      · exact noMarker_seenLine hseen htail line hline
  · have hempty : isHeadingLine ([] : Line) = false ∧ isFooterLine [] = false := by decide
    have hread : seenLine [] = [[]] := rfl
    have hlisting : (tocListing (arrangeTop lines name options).1 options.maxDepth).flatMap
        seenLine = tocListing (arrangeTop lines name options).1 options.maxDepth := by
      refine flatMap_seenLine_of_clean fun line hline => cleanLine_of_mem_tocLines (fun l hl => ?_)
        (List.mem_append_left _ hline)
      exact (hfresh.clean_and_noMarker hclean hname (mem_arrangeTop hl)).1.1
    refine Or.inr ⟨by rw [hsections, hsome], (settledAbove options.footerLevels
      (ruleLine options.rule) above).flatMap seenLine ++ [title, [], topAnchor, []],
      (renewFooters options.footerLevels (ruleLine options.rule) (baseOpened options.footerLevels)
        false after).flatMap seenLine, ?_, by simp, ?_, noMarker_seenLine hseen hafter⟩
    · rw [tocListing_congr houtline, hparts, htail, renewFooters_cons_of_plain hempty.1 hempty.2,
        renewFooters_tocListing, List.flatMap_cons, List.flatMap_append, hlisting]
      simp [hread]
    · have hplain : ∀ l ∈ ([[], topAnchor, []] : Buffer), isMarkerLine l = false := by decide
      intro line hline
      rcases List.mem_append.mp hline with hline | hline
      · exact habove line hline
      · rcases List.mem_cons.mp hline with rfl | hline
        · exact htitle
        · exact hplain line hline

include hblank in
/-- What is written for a fresh note comes out the same. -/
theorem WrittenParts.arrangeLines_relined :
    arrangeLines (relined (arrangeLines lines name options)) name options =
      arrangeLines lines name options := by
  have hheading := isHeadingLine_ruleLine options.rule
  have hsettled := h.tocSettled hclean hname hfresh hrule hreturn
  have hlisted : listedLines (relined (arrangeLines lines name options)) name options =
      (arrangeLines lines name options).flatMap seenLine := by
    rw [listedLines, h.arrangeTop_relined hclean hname hfresh hrule hreturn hblank,
      hsettled.ensureToc_eq]
  have hlines : ∀ line ∈ listedLines lines name options, CleanLine line :=
    fun _ => cleanLine_of_mem_listedLines hclean hname.1 hname.2.1
  have hfooter : ∀ line ∈ listedLines lines name options, isFooterLine line = false :=
    fun _ => hfresh.noFooter_listedLines
  rw [arrangeLines_eq (relined _), hlisted, hfresh.arrangeLines_eq, renewFooters]
  -- What the second pass keeps is what the first one had put its footers in, and some empty lines
  -- where the footers were; the new footers go into these.
  generalize listedLines lines name options = listed at hlines hfooter
  obtain ⟨ruled, hread, hmark⟩ := hrule.exists_readsBack hheading hreturn hblank
  rw [hread.keptLines_placeFooters hblank List.Pairwise.nil
      (fun line hline => ⟨seenLine_of_clean (hlines line hline), hmark line (hlines line hline).1⟩)
      (noOldFooter_of_forall hfooter),
    placeFooters_padSections]

end Settled

/-- A fresh note is settled after one pass if the rule line lasts. -/
theorem arrange_arrange_of_lasting (text name : String) (options : Options)
    (hrule : LastingRule options.normalized.rule) (hname : PlainName name.toList)
    (hreturn : '\r' ∉ text.toList) (hfresh : IsFresh (splitLines text.toList)) :
    arrange (arrange text name options) name options = arrange text name options := by
  have hleft : ∀ note, needsNavigation note = false → arrange note name options = note :=
    fun note hneeds => by simp [arrange, hneeds]
  -- A note that needs no navigation stays as it is, so only two runs that both write are compared.
  cases hneeds : needsNavigation text with
  | false => rw [hleft text hneeds, hleft text hneeds]
  | true =>
    cases hagain : needsNavigation (arrange text name options) with
    | false => exact hleft _ hagain
    | true =>
      have hused : ruleLine options.normalized.rule = options.normalized.rule :=
        ruleLine_usableRule options
      have hclean : ∀ line ∈ splitLines text.toList, CleanLine line :=
        fun _ => cleanLine_of_mem_splitLines hreturn
      obtain ⟨above, title, below, tail, hparts⟩ :=
        hfresh.exists_writtenParts hclean hname options.normalized
      have hsame := hparts.arrangeLines_relined hclean hname hfresh (by rwa [hused])
        (by rw [hused]; exact getLast?_usableRule options)
        (by rw [hused]; exact isBlank_usableRule options)
      apply String.toList_injective
      rw [toList_arrange hagain, splitLines_arrange hneeds, hsame, toList_arrange hneeds]

end Waymark
