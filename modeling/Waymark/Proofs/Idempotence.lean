import Waymark.Proofs.Anchored
import Waymark.Proofs.LineEnds

/-!
# Arranging an arranged note

Each stage recognises what it and the other stages have written: the frontmatter block is
found again, the title stands where it was found or made, the anchor is at its place, the
table of contents is current, and the footers come out as they were put in. So a second
pass changes nothing, provided that no line of the note is taken by two stages for two
different things.

## Main definitions

* `Orderly` — what is asked of the lines of a note

## Main results

* `arrangeLines_arrangeLines` — arranging the lines of a note twice
* `arrange_arrange` — arranging a note twice is arranging it once
-/

namespace Waymark

/-- What is asked of the lines of a note: line ends are clean, markers stand alone on their lines,
there are no headings and markers in the frontmatter block, and the first visible line of a note
that neither has nor gets a block is no line that could be taken for the start of one. -/
structure Orderly (lines : Buffer) (create : Bool) : Prop where
  /-- No line ends in a carriage return. -/
  clean : ∀ line ∈ lines, line.getLast? ≠ some '\r'
  /-- Every marker line is a marker and blanks. -/
  bare : ∀ line ∈ lines, isMarkerLine line = true → isBareMarker line = true
  /-- No line through the end of the frontmatter block is a heading or a marker. -/
  front : ∀ span, findFrontmatter lines = some span → ∀ line ∈ lines.take (span.last + 1),
    isHeadingLine line = false ∧ isMarkerLine line = false
  /-- Without a block the first line that is not blank is no fence, anchor or marker. -/
  opening : findFrontmatter lines = none → create = false →
    ∀ line ∈ (lines.dropWhile isBlank).head?,
      isFence line = false ∧ line ≠ topAnchor ∧ isMarkerLine line = false

variable {lines above below tail front back : Buffer} {line title rule : Line} {start : Nat}
variable {name text : List Char} {options : Options} {pretty : Bool} {levels : List Nat}

/-! ### The title and the frontmatter block -/

/-- A title that cuts a note is a heading of level one. -/
theorem Entitled.headingOfLine?_title (hname : '\n' ∉ name)
    (hcut : Entitled lines start name pretty above title below) :
    ∃ text, headingOfLine? title = some (1, text) := by
  cases hcut with
  | found _ _ _ htitle =>
    obtain ⟨text, htext⟩ := Option.isSome_iff_exists.mp htitle
    exact ⟨text, titleOfLine?_eq_some_iff.mp htext⟩
  | made => exact exists_headingOfLine?_titleLine hname pretty

/-- What the stages leave above the title. -/
def settledAbove (levels : List Nat) (rule : Line) (above : Buffer) : Buffer :=
  renewFooters levels rule [] false (withoutToc (withoutAnchors above))

theorem titleOfLine?_of_mem_settledAbove (hrule : isHeadingLine rule = false)
    (habove : ∀ line ∈ above, titleOfLine? line = none)
    (h : line ∈ settledAbove levels rule above) : titleOfLine? line = none := by
  rcases mem_renewFooters h with h | rfl | rfl | rfl
  · exact habove line (mem_withoutAnchors ((withoutToc_sublist _).subset h))
  · rfl
  · exact titleOfLine?_eq_none_of_isHeadingLine isHeadingLine_backToTop
  · exact titleOfLine?_eq_none_of_isHeadingLine hrule

/-- Lines above the first heading that are neither anchors nor markers stay. -/
theorem settledAbove_append (hfront : ∀ line ∈ withoutAnchors front,
      isHeadingLine line = false ∧ isMarkerLine line = false) (back : Buffer) :
    settledAbove levels rule (front ++ back) =
      withoutAnchors front ++ settledAbove levels rule back := by
  rw [settledAbove, withoutAnchors_append,
    withoutToc_append (fun l hl => (not_marker_parts (hfront l hl).2).1)
      (fun l hl => (not_marker_parts (hfront l hl).2).2),
    renewFooters_nil_append _ _ _ fun l hl => (hfront l hl).1]
  rfl

theorem withoutAnchors_of_blank {blanks : Buffer} (h : ∀ line ∈ blanks, isBlank line = true) :
    withoutAnchors blanks = blanks := by
  refine withoutAnchors_eq_self fun hmem => ?_
  have := h _ hmem
  revert this
  decide

/-- The first visible line of a note stays the first one, unless it is an anchor or a marker. -/
theorem dropWhile_settledAbove (habove : ∀ line ∈ (above.dropWhile isBlank).head?,
      line ≠ topAnchor ∧ isMarkerLine line = false) (htitle : isBlank title = false) :
    ((settledAbove levels rule above ++ title :: tail).dropWhile isBlank).head? =
      ((above ++ title :: below).dropWhile isBlank).head? := by
  have hblanks : ∀ line ∈ above.takeWhile isBlank, isBlank line = true :=
    List.all_eq_true.mp List.all_takeWhile
  have hvisible : ∀ line ∈ (above.dropWhile isBlank).head?, isBlank line = false :=
    fun line hline => eq_false_of_mem_head?_dropWhile hline
  have hparts : above.takeWhile isBlank ++ above.dropWhile isBlank = above :=
    List.takeWhile_append_dropWhile
  generalize above.takeWhile isBlank = blanks at hblanks hparts
  generalize above.dropWhile isBlank = rest at habove hvisible hparts
  subst hparts
  have hplain : ∀ line ∈ withoutAnchors blanks,
      isHeadingLine line = false ∧ isMarkerLine line = false := by
    rw [withoutAnchors_of_blank hblanks]
    exact fun l hl => ⟨isHeadingLine_eq_false_of_isBlank (hblanks l hl),
      isMarkerLine_eq_false_of_isBlank (hblanks l hl)⟩
  rw [settledAbove_append hplain, withoutAnchors_of_blank hblanks, List.append_assoc,
    List.append_assoc]
  -- Blank lines above stay as they are, and so does the first line that is not blank.
  cases rest with
  | nil =>
    have hnil : settledAbove levels rule [] = [] := rfl
    rw [hnil, List.nil_append, List.nil_append, dropWhile_isBlank_append hblanks htitle,
      dropWhile_isBlank_append hblanks htitle]
    rfl
  | cons first rest =>
    obtain ⟨hanchor, hmarker⟩ := habove first rfl
    have hfirst := hvisible first rfl
    obtain ⟨hstart, hend⟩ := not_marker_parts hmarker
    rw [settledAbove, withoutAnchors_cons_of_ne hanchor, withoutToc_cons hstart hend,
      renewFooters_nil_cons, List.cons_append, List.cons_append,
      dropWhile_isBlank_append hblanks hfirst, dropWhile_isBlank_append hblanks hfirst]
    rfl

/-- A frontmatter block is found again, and no title between it and the title of the note. -/
theorem titleStart_settledAbove (hrule : isHeadingLine rule = false) (hends : EndsFrontmatter front)
    (hfront : ∀ line ∈ front, isHeadingLine line = false ∧ isMarkerLine line = false)
    (hcut : Entitled (front ++ back) front.length name pretty above title below) (create : Bool)
    (tail : Buffer) :
    ∃ start, titleStart (settledAbove levels rule above ++ tail) create =
        (settledAbove levels rule above ++ tail, start) ∧
      start ≤ (settledAbove levels rule above).length ∧
        ∀ line ∈ (settledAbove levels rule above).drop start, titleOfLine? line = none := by
  obtain ⟨middle, rfl, hmiddle⟩ := hcut.exists_above
  have hsettled : settledAbove levels rule (front ++ middle) =
      withoutAnchors front ++ settledAbove levels rule middle :=
    settledAbove_append (fun l hl => hfront l (mem_withoutAnchors hl)) middle
  refine ⟨(withoutAnchors front).length, ?_, ?_, ?_⟩
  · rw [hsettled, List.append_assoc, titleStart_append hends.withoutAnchors]
  · rw [hsettled, List.length_append]
    omega
  · rw [hsettled, List.drop_left]
    exact fun line hline => titleOfLine?_of_mem_settledAbove hrule hmiddle hline

/-- Where there is no block above the title, and the first visible line is none that could be taken
for the start of one, there still is none. -/
theorem findFrontmatter_settledAbove (habove : ∀ line ∈ (above.dropWhile isBlank).head?,
      isFence line = false ∧ line ≠ topAnchor ∧ isMarkerLine line = false)
    (htitle : isHeadingLine title = true) (tail : Buffer) :
    findFrontmatter (settledAbove levels rule above ++ title :: tail) = none := by
  have hblank := isBlank_eq_false_of_isHeadingLine htitle
  have hfirst : ((settledAbove levels rule above ++ title :: tail).dropWhile isBlank).head? =
      ((above ++ title :: tail).dropWhile isBlank).head? :=
    dropWhile_settledAbove (fun l hl => (habove l hl).2) hblank
  apply findFrontmatter_eq_none
  intro line hline
  rw [hfirst, List.dropWhile_append] at hline
  -- The first visible line is the title, or one above it that is no fence.
  split at hline
  · rw [List.dropWhile_cons_of_neg (by simp [hblank]), List.head?_cons] at hline
    obtain rfl := Option.some.inj hline
    exact isFence_eq_false_of_isHeadingLine htitle
  · next hne =>
    cases hrest : above.dropWhile isBlank with
    | nil => exact absurd (by rw [hrest]; rfl) hne
    | cons first rest =>
      rw [hrest, List.cons_append, List.head?_cons] at hline
      obtain rfl := Option.some.inj hline
      exact (habove first (by rw [hrest]; rfl)).1

/-- The search for the title starts again above the title and below all other titles there are. -/
theorem titleStart_arranged (hrule : isHeadingLine rule = false) {create : Bool}
    (hnote : Orderly lines create)
    (hcut : Entitled (titleStart lines create).1 (titleStart lines create).2 name pretty
      above title below) (htitle : isHeadingLine title = true) (tail : Buffer) :
    ∃ start, titleStart (settledAbove levels rule above ++ title :: tail) create =
        (settledAbove levels rule above ++ title :: tail, start) ∧
      start ≤ (settledAbove levels rule above).length ∧
        ∀ line ∈ (settledAbove levels rule above).drop start, titleOfLine? line = none := by
  cases hfind : findFrontmatter lines with
  | some span =>
    obtain ⟨front, back, hends, rfl, hlength⟩ := exists_of_findFrontmatter hfind
    rw [titleStart_append hends] at hcut
    refine titleStart_settledAbove hrule hends (fun line hline => ?_) hcut create (title :: tail)
    refine hnote.front span hfind line ?_
    rw [← hlength, List.take_left]
    exact hline
  | none =>
    cases create with
    | true =>
      rw [titleStart_of_create hfind] at hcut
      have hfences : ∀ line ∈ [fenceLine, fenceLine],
          isHeadingLine line = false ∧ isMarkerLine line = false := by decide
      exact titleStart_settledAbove hrule endsFrontmatter_fences hfences hcut true (title :: tail)
    | false =>
      rw [titleStart_of_none hfind] at hcut
      -- Without a frontmatter, the first visible line must not become one: it is no fence, and no
      -- stage takes it out.
      have habove : (∀ line ∈ above, titleOfLine? line = none) ∧
          ∀ line ∈ (above.dropWhile isBlank).head?,
            isFence line = false ∧ line ≠ topAnchor ∧ isMarkerLine line = false := by
        cases hcut with
        | found hparts _ hfirst _ =>
          have hlines : lines = above ++ title :: below := hparts
          refine ⟨hfirst, fun line hline => hnote.opening hfind rfl line ?_⟩
          rw [hlines, List.dropWhile_append]
          split
          · next hempty =>
            rw [List.isEmpty_iff.mp hempty] at hline
            cases hline
          · rw [List.head?_append, hline]
            rfl
        | made =>
          refine ⟨fun line hline => ?_, fun line hline => by cases hline⟩
          rw [List.mem_singleton.mp hline]
          rfl
      exact ⟨0, titleStart_of_none (findFrontmatter_settledAbove habove.2 htitle tail),
        Nat.zero_le _, fun line hline => titleOfLine?_of_mem_settledAbove hrule habove.1 hline⟩

/-! ### Anchors and markers -/

theorem topAnchor_not_mem_renewFooters (hrule : rule ≠ topAnchor) {opened : List Nat}
    {endsBlank : Bool} (h : topAnchor ∉ lines) :
    topAnchor ∉ renewFooters levels rule opened endsBlank lines := fun hmem =>
  forall_mem_renewFooters (p := (· ≠ topAnchor)) (by decide) (by decide) hrule
    (fun line hline heq => h (heq ▸ hline)) topAnchor hmem rfl

theorem no_marker_renewFooters (hrule : isMarkerLine rule = false) {opened : List Nat}
    {endsBlank : Bool} (h : ∀ line ∈ lines, isMarkerLine line = false) :
    ∀ line ∈ renewFooters levels rule opened endsBlank lines, isMarkerLine line = false :=
  forall_mem_renewFooters (by decide) (by decide) hrule h

/-- Where markers stand alone, none is left when the tables of contents are out. -/
theorem no_marker_withoutToc
    (h : ∀ line ∈ lines, isMarkerLine line = true → isBareMarker line = true) :
    ∀ line ∈ withoutToc lines, isMarkerLine line = false := by
  intro line hline
  exact isMarkerLine_eq_false_of_bare (h line ((withoutToc_sublist _).subset hline))
    (isStartMarker_eq_false_of_mem_withoutToc hline)
    (isBareEndMarker_eq_false_of_mem_withoutToc hline)

/-- Every marker line is a marker alone, also among the lines that the first stages leave. -/
theorem bare_arrangeTop {create : Bool} (hnote : Orderly lines create) (hname : PlainName name)
    (h : line ∈ (arrangeTop lines name options).1) (hmarker : isMarkerLine line = true) :
    isBareMarker line = true := by
  rcases mem_arrangeTop h with h | h
  · exact hnote.bare line h hmarker
  · rw [isMarkerLine_eq_false_of_mem_topLines hname.2.2.1 hname.2.2.2 h] at hmarker
    cases hmarker

/-! ### Arranging twice -/

/-- Where markers stand alone, the table of contents is settled when the stages are through. -/
theorem tocSettled_renewFooters {top : Buffer} (hrule : PlainRule rule)
    (hheading : isHeadingLine rule = false) (hne : rule ≠ [])
    (htop : top = above ++ title :: [] :: topAnchor :: tail)
    (hgap : ∀ line ∈ tail.head?, line = []) (htitle : headingOfLine? title = some (1, text))
    (hbare : ∀ line ∈ top, isMarkerLine line = true → isBareMarker line = true) (depth : Nat) :
    TocSettled (renewFooters levels rule [] false (ensureToc top (above.length + 2) depth))
      ((renewFooters levels rule [] false (withoutToc above)).length + 4) depth := by
  have htitleHeading : isHeadingLine title = true := isHeadingLine_iff.mpr ⟨_, _, htitle⟩
  have hclean : ∀ line ∈ top, isHeadingLine line = true → isMarkerLine line = false := by
    intro line hline hhead
    by_contra hmarker
    rw [isHeadingLine_eq_false_of_isBareMarker (hbare line hline (by simpa using hmarker))] at hhead
    cases hhead
  -- The headings that the table lists are those of the buffer that comes out.
  have houtline : outline (renewFooters levels rule [] false
      (ensureToc top (above.length + 2) depth)) = outline top := by
    rw [outline_renewFooters hheading
      fun _ => isMarkLine_eq_false_of_isHeadingLine hrule.noHash hne, outline_ensureToc,
      outline_withoutToc_eq_iff]
    exact fun line hline hhead => (isMarkerLine_eq_false_iff.mp (hclean line hline hhead)).1
  have htitleMarker := hclean title (by simp [htop]) htitleHeading
  have hsections := hasSections_congr houtline (effectiveDepth depth)
  obtain ⟨tail', htoc, hcases⟩ := ensureToc_anchored htop htitleHeading
    (isMarkerLine_eq_false_iff.mp htitleMarker).1 hgap depth
  rcases hcases with ⟨hnone, rfl⟩ | ⟨hsome, after, rfl, hafter, -, hsource⟩
  · refine Or.inl ⟨by rw [hsections, hnone], ?_⟩
    rw [ensureToc_of_not_hasSections hnone]
    exact no_marker_renewFooters hrule.noMarker (no_marker_withoutToc hbare)
  · have habove : ∀ line ∈ withoutToc above, isMarkerLine line = false :=
      no_marker_withoutToc fun line hline => hbare line (by simp [htop, hline])
    have hafterMarker : ∀ line ∈ after, isMarkerLine line = false := by
      rw [← hafter]
      refine no_marker_withoutToc fun line hline hmarker => ?_
      rcases hsource line hline with hmem | rfl
      · exact hbare line (by simp [htop, hmem]) hmarker
      · revert hmarker
        decide
    refine Or.inr ⟨by rw [hsections, hsome],
      renewFooters levels rule [] false (withoutToc above) ++ [title, [], topAnchor, []],
      renewFooters levels rule (baseOpened levels) false after, ?_, by simp, ?_, ?_⟩
    · have hempty : isHeadingLine ([] : Line) = false ∧ isFooterLine [] = false := by decide
      rw [tocListing_congr houtline, htoc, renewFooters_anchored htitle,
        renewFooters_cons_of_plain hempty.1 hempty.2, renewFooters_tocListing]
      simp
    · intro line hline
      have hplain : ∀ l ∈ ([[], topAnchor, []] : Buffer), isMarkerLine l = false := by decide
      rcases List.mem_append.mp hline with hline | hline
      · exact no_marker_renewFooters hrule.noMarker habove line hline
      · rcases List.mem_cons.mp hline with rfl | hline
        · exact htitleMarker
        · exact hplain line hline
    · exact no_marker_renewFooters hrule.noMarker hafterMarker

/-- What the stages of the table of contents and of the footers leave of an anchored buffer. -/
theorem exists_arrangeLines_of_arrangeTop (htop : arrangeTop lines name options =
      (withoutAnchors above ++ title :: [] :: topAnchor :: tail, (withoutAnchors above).length + 2))
    (htitle : headingOfLine? title = some (1, text)) (hmark : isStartMarker title = false)
    (hgap : ∀ line ∈ tail.head?, line = []) :
    ∃ tail', arrangeLines lines name options =
        settledAbove options.footerLevels (ruleLine options.rule) above ++
          title :: [] :: topAnchor ::
          renewFooters options.footerLevels (ruleLine options.rule)
            (baseOpened options.footerLevels) false tail' ∧
      ((hasSections (headings (arrangeTop lines name options).1)
            (effectiveDepth options.maxDepth) = false ∧ tail' = withoutToc tail) ∨
        (hasSections (headings (arrangeTop lines name options).1)
            (effectiveDepth options.maxDepth) = true ∧ ∃ after,
          tail' = [] :: (tocListing (arrangeTop lines name options).1 options.maxDepth ++ after) ∧
            withoutToc after = after ∧ (withoutToc tail).tail <:+ after ∧
              ∀ line ∈ after, line ∈ tail ∨ line = [])) := by
  obtain ⟨tail', htoc, hcases⟩ :=
    ensureToc_anchored rfl (isHeadingLine_iff.mpr ⟨_, _, htitle⟩) hmark
    hgap options.maxDepth
  refine ⟨tail', ?_, by rwa [htop]⟩
  rw [arrangeLines_eq, listedLines, htop, htoc, renewFooters_anchored htitle]
  rfl

theorem topAnchor_not_mem_settledAbove (hrule : rule ≠ topAnchor) (levels : List Nat)
    (above : Buffer) : topAnchor ∉ settledAbove levels rule above :=
  topAnchor_not_mem_renewFooters hrule fun hmem =>
    topAnchor_not_mem_withoutAnchors _ ((withoutToc_sublist _).subset hmem)

/-- Taking tables of contents out leaves the empty line below the anchor. -/
theorem head?_withoutToc (hgap : ∀ line ∈ tail.head?, line = []) :
    ∀ line ∈ (withoutToc tail).head?, line = [] := by
  cases tail with
  | nil => simp
  | cons first tail =>
    obtain rfl : first = [] := hgap first rfl
    rw [withoutToc_cons (by decide) (by decide)]
    simp

theorem topAnchor_not_mem_listing {listed after : Buffer} {depth : Nat} (htail : topAnchor ∉ tail)
    (hsource : ∀ line ∈ after, line ∈ tail ∨ line = []) :
    topAnchor ∉ [] :: (tocListing listed depth ++ after) := by
  intro hmem
  rcases List.mem_cons.mp hmem with hmem | hmem
  · revert hmem
    decide
  · rcases List.mem_append.mp hmem with hmem | hmem
    · exact ne_topAnchor_of_mem_tocListing hmem rfl
    · rcases hsource _ hmem with hmem | hmem
      · exact htail hmem
      · revert hmem
        decide

/-- An arranged buffer is anchored, and its table of contents is settled. -/
theorem exists_anchoredAt_arrangeLines (hrule : PlainRule (ruleLine options.rule))
    (hname : PlainName name) (hnote : Orderly lines options.createFrontmatter) :
    ∃ above title tail,
      AnchoredAt (arrangeLines lines name options) options.createFrontmatter above title tail ∧
        TocSettled (arrangeLines lines name options) (above.length + 4) options.maxDepth := by
  have hheading := isHeadingLine_ruleLine options.rule
  have hne := ruleLine_ne_nil options.rule
  obtain ⟨above, title, below, hcut, htop⟩ := arrangeTop_eq lines name options
  obtain ⟨text, htext⟩ := hcut.headingOfLine?_title hname.2.1
  have htitle : isHeadingLine title = true := isHeadingLine_iff.mpr ⟨_, _, htext⟩
  have hbare : ∀ line ∈ (arrangeTop lines name options).1,
      isMarkerLine line = true → isBareMarker line = true :=
    fun _ => bare_arrangeTop hnote hname
  have hgap := head?_ensureEmptyAt (withoutAnchors (belowGap below))
  have htailAnchor := topAnchor_not_mem_ensureEmptyAt (belowGap below)
  generalize ensureEmptyAt (withoutAnchors (belowGap below)) 0 = tail at htop hgap htailAnchor
  rw [htop] at hbare
  -- Markers stand alone, so a heading mentions none.
  have hmark : isStartMarker title = false := by
    by_contra hstart
    have := hbare title (by simp) (isMarkerLine_of_isStartMarker (by simpa using hstart))
    rw [isHeadingLine_eq_false_of_isBareMarker this] at htitle
    cases htitle
  have hsettled : TocSettled (arrangeLines lines name options)
      ((settledAbove options.footerLevels (ruleLine options.rule) above).length + 4)
      options.maxDepth := by
    rw [arrangeLines_eq, listedLines, htop]
    exact tocSettled_renewFooters hrule hheading hne rfl hgap htext hbare options.maxDepth
  obtain ⟨tail', hout, hcases⟩ := exists_arrangeLines_of_arrangeTop htop htext hmark hgap
  have htail' : topAnchor ∉ tail' ∧ ∀ line ∈ tail'.head?, line = [] := by
    rcases hcases with ⟨-, rfl⟩ | ⟨-, after, rfl, -, -, hsource⟩
    · exact ⟨fun hmem => htailAnchor ((withoutToc_sublist _).subset hmem), head?_withoutToc hgap⟩
    · exact ⟨topAnchor_not_mem_listing htailAnchor hsource, by simp⟩
  -- The second pass starts its search behind the same frontmatter and finds the same title.
  obtain ⟨start, hsearch, hle, hfirst⟩ := titleStart_arranged hheading hnote hcut htitle
    ([] :: topAnchor :: renewFooters options.footerLevels (ruleLine options.rule)
      (baseOpened options.footerLevels) false tail')
  rw [← hout] at hsearch
  exact ⟨_, title, _, ⟨hout, ⟨text, htext⟩, ⟨start, hsearch, hle, hfirst⟩,
    topAnchor_not_mem_settledAbove hrule.noAnchor _ _,
    topAnchor_not_mem_renewFooters hrule.noAnchor htail'.1, head?_renewFooters _ _ _ htail'.2⟩,
    hsettled⟩

/-- Arranging the lines of a note twice is arranging them once. -/
theorem arrangeLines_arrangeLines (hrule : PlainRule (ruleLine options.rule))
    (hblank : isBlank (ruleLine options.rule) = false) (hname : PlainName name)
    (hnote : Orderly lines options.createFrontmatter) :
    arrangeLines (arrangeLines lines name options) name options =
      arrangeLines lines name options := by
  obtain ⟨above, title, tail, hanchored, hsettled⟩ :=
    exists_anchoredAt_arrangeLines hrule hname hnote
  refine arrangeLines_anchored hanchored.arrangeTop_eq hsettled ?_
  rw [arrangeLines_eq, renewFooters_renewFooters (isHeadingLine_ruleLine _) hblank]

/-- Arranging a note twice is arranging it once. -/
theorem arrange_arrange (text name : String) (options : Options)
    (hrule : PlainRule options.normalized.rule) (hname : PlainName name.toList)
    (hnote : Orderly (splitLines text.toList) options.createFrontmatter) :
    arrange (arrange text name options) name options = arrange text name options := by
  cases hneeds : needsNavigation text with
  | false =>
    have hleft : arrange text name options = text := by simp [arrange, hneeds]
    rw [hleft, hleft]
  | true =>
    have hruleLine : ruleLine options.normalized.rule = options.normalized.rule :=
      ruleLine_usableRule options
    have hclean : ∀ line ∈ arrangeLines (splitLines text.toList) name.toList options.normalized,
        CleanLine line := by
      refine fun line => cleanLine_of_mem_arrangeLines
        (fun l hl => ⟨not_mem_of_mem_splitLines hl, hnote.clean l hl⟩) hname.1 hname.2.1 ?_
      rw [hruleLine]
      exact ⟨hrule.oneLine, getLast?_usableRule options⟩
    have hlines :
        ∃ lines, arrangeLines (splitLines text.toList) name.toList options.normalized = lines ∧
        lines ≠ [] ∧ arrangeLines lines name.toList options.normalized = lines := by
      rw [← hruleLine] at hrule
      obtain ⟨above, title, tail, hanchored, -⟩ := exists_anchoredAt_arrangeLines hrule hname hnote
      refine ⟨_, rfl, by rw [hanchored.parts]; simp, arrangeLines_arrangeLines hrule ?_ hname hnote⟩
      rw [hruleLine]
      exact isBlank_usableRule options
    obtain ⟨lines, hout, hne, hfixed⟩ := hlines
    rw [hout] at hclean
    have hsplit : splitLines (joinLines lines) = lines :=
      splitLines_joinLines_eq_self hne ⟨fun l hl => (hclean l hl).1,
        fun l hl => (hclean l ((List.dropLast_prefix lines).subset hl)).2⟩
    have honce : arrange text name options = .ofList (joinLines lines) := by
      simp [arrange, hneeds, hout]
    rw [honce, arrange]
    split
    · rw [String.toList_ofList, hsplit, hfixed]
    · rfl

/-- A note of two sections with an orphan end marker is orderly, and comes out the same twice. -/
theorem arrange_arrange_two_sections :
    needsNavigation "## One\n%% MDNAV:TOC END %%\ntext\n## Two" = true ∧
      arrange (arrange "## One\n%% MDNAV:TOC END %%\ntext\n## Two" "a-note" {}) "a-note" {} =
        arrange "## One\n%% MDNAV:TOC END %%\ntext\n## Two" "a-note" {} := by
  refine ⟨by decide +kernel, arrange_arrange _ _ _ ⟨?_, ?_, ?_, ?_⟩ ?_ ⟨?_, ?_, ?_, ?_⟩⟩
  · decide +kernel
  · decide +kernel
  · decide +kernel
  · decide +kernel
  · exact ⟨by decide +kernel, by decide +kernel, by decide +kernel, by decide +kernel⟩
  · decide +kernel
  · decide +kernel
  · intro span hspan
    have hnone : findFrontmatter
        (splitLines "## One\n%% MDNAV:TOC END %%\ntext\n## Two".toList) = none := by
      decide +kernel
    rw [hnone] at hspan
    cases hspan
  · intro _ _
    decide +kernel

end Waymark
