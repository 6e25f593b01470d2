import Waymark.Proofs.Generated
import Waymark.Proofs.LineEnds

/-!
# The frontmatter block

No stage looks for headings below the frontmatter block only. The block is left as it is, but
for its anchors, by all stages up to the table of contents. A line of the block that passes
for a heading opens a section like any other, so a footer is put into the block exactly where
such a section ends in it, and the rule line of the footer may end the block. Where no section
ends in the block, the footers go in below it.

## Main definitions

* `Nests` — no section of a configured level ends among the lines
* `KeepsFrontmatter` — the block comes through, but for its anchors

## Main results

* `placeFooters_append_of_nests`, `exists_of_not_nests` — where the first footer is put in
* `findFrontmatter_linesOf_iff` — a block read off the start of a buffer
* `keepsFrontmatter_iff` — exactly when the block comes through
-/

namespace Waymark

/-- No section of a configured level ends among the lines: neither one of those that are open
around them nor one that they open. -/
def Nests (levels opened : List Nat) (lines : Buffer) : Prop :=
  (∀ level ∈ opened, ∀ head ∈ outline lines, level < head.1) ∧
    (outline lines).Pairwise fun head next => head.1 ∈ levels → head.1 < next.1

/-- The arranged note has a frontmatter block that is the one at the given span of the note, less
its anchors. -/
def KeepsFrontmatter (lines arranged : Buffer) (span : Span) : Prop :=
  ∃ found, findFrontmatter arranged = some found ∧
    arranged.linesOf found = withoutAnchors (lines.linesOf span)

variable {levels opened : List Nat} {rule line : Line} {cover : Option Nat} {endsBlank : Bool}
variable {lines front back blanks middle : Buffer} {opening closing : Line} {name : List Char}
variable {options : Options} {span : Span}

/-! ### Where the first footer goes in -/

theorem nests_nil (levels opened : List Nat) : Nests levels opened [] :=
  ⟨fun _ _ _ h => (List.not_mem_nil h).elim, List.Pairwise.nil⟩

/-- Going on by one line. -/
theorem nests_cons : Nests levels opened (line :: lines) ↔
    closingCount opened line = 0 ∧ Nests levels (nextOpened levels opened line) lines := by
  cases hline : headingOfLine? line with
  | none =>
    have hplain := isHeadingLine_eq_false_iff.mpr hline
    rw [closingCount_of_not_heading hplain, nextOpened_of_not_heading hplain, Nests, Nests,
      outline_cons_of_not_heading hplain, and_iff_right rfl]
  | some pair =>
    have hclosing : closingCount opened line = 0 ↔ ∀ level ∈ opened, level < pair.1 := by
      rw [closingCount, List.countP_eq_zero]
      simp only [endsSection_of_headingOfLine? hline, decide_eq_true_eq, Nat.not_le]
    have houtline : outline (line :: lines) = pair :: outline lines := by
      rw [outline_cons, outline_singleton, hline]
      rfl
    rw [hclosing, Nests, Nests, houtline, List.pairwise_cons]
    -- Behind the heading, a section is open that was open before, or the one of the heading.
    constructor
    · rintro ⟨hopened, hnew, hrest⟩
      refine ⟨fun level hlevel => hopened level hlevel pair List.mem_cons_self,
        fun level hlevel head hhead => ?_, hrest⟩
      rcases mem_nextOpened_iff.mp hlevel with ⟨hopen, -⟩ | ⟨hconfigured, text, hpair⟩
      · exact hopened level hopen head (List.mem_cons_of_mem _ hhead)
      · obtain rfl : pair = (level, text) := Option.some.inj (hline.symm.trans hpair)
        exact hnew head hhead hconfigured
    · rintro ⟨hopened, hnew, hrest⟩
      refine ⟨fun level hlevel head hhead => ?_, fun head hhead hconfigured => ?_, hrest⟩
      · rcases List.mem_cons.mp hhead with rfl | hhead
        · exact hopened level hlevel
        · refine hnew level (mem_nextOpened_iff.mpr (Or.inl ⟨hlevel, ?_⟩)) head hhead
          rw [endsSection_of_headingOfLine? hline, decide_eq_false_iff_not, Nat.not_le]
          exact hopened level hlevel
      · exact hnew pair.1 (mem_nextOpened_iff.mpr (Or.inr ⟨hconfigured, pair.2, hline⟩)) head hhead

/-- Where no section ends among the first lines, no footer is put in there. -/
theorem placeFooters_append_of_nests (h : Nests levels opened front) (rule : Line)
    (endsBlank : Bool)
    (back : Buffer) : ∃ opened' endsBlank',
      placeFooters levels rule opened endsBlank (front ++ back) =
        front ++ placeFooters levels rule opened' endsBlank' back := by
  induction front generalizing opened endsBlank with
  | nil => exact ⟨opened, endsBlank, rfl⟩
  | cons line front ih =>
    obtain ⟨hclosing, hrest⟩ := nests_cons.mp h
    obtain ⟨opened', endsBlank', hplaced⟩ := ih hrest (isBlank line)
    exact ⟨opened', endsBlank', by rw [List.cons_append, placeFooters, hclosing, hplaced]; rfl⟩

/-- Where a section ends among the first lines, the first footer goes in above the heading that
ends it. -/
theorem exists_of_not_nests (h : ¬ Nests levels opened front) (rule : Line) (endsBlank : Bool)
    (back : Buffer) : ∃ before title after first more, front = before ++ title :: after ∧
      isHeadingLine title = true ∧ (first = [] ∨ first = backToTop) ∧
        placeFooters levels rule opened endsBlank (front ++ back) = before ++ first :: more := by
  induction front generalizing opened endsBlank with
  | nil => exact absurd (nests_nil levels opened) h
  | cons line front ih =>
    rw [nests_cons, not_and] at h
    rw [List.cons_append, placeFooters]
    cases hclosing : closingCount opened line with
    | zero =>
      obtain ⟨before, title, after, first, more, hfront, htitle, hfirst, hplaced⟩ :=
        ih (h hclosing) (isBlank line)
      refine ⟨line :: before, title, after, first, more, ?_, htitle, hfirst, ?_⟩
      · rw [hfront, List.cons_append]
      · rw [hplaced]
        rfl
    | succ count =>
      -- The line ends a section, so a footer comes first, with or without an empty line above.
      have htitle : isHeadingLine line = true :=
        isHeadingLine_of_closingCount (by rw [hclosing]; exact Nat.succ_ne_zero count)
      cases endsBlank with
      | true => exact ⟨[], line, front, backToTop, _, rfl, htitle, Or.inr rfl, rfl⟩
      | false => exact ⟨[], line, front, [], _, rfl, htitle, Or.inl rfl, rfl⟩

/-! ### Reading the block -/

theorem linesOf_frontmatter (blanks : Buffer) (opening : Line) (middle : Buffer) (closing : Line)
    (back : Buffer) : Buffer.linesOf (blanks ++ opening :: (middle ++ closing :: back))
      ⟨blanks.length, blanks.length + 1 + middle.length⟩ = opening :: (middle ++ [closing]) := by
  have hread := linesOf_append blanks (opening :: (middle ++ [closing])) back (by simp)
  have hlast : blanks.length + (opening :: (middle ++ [closing])).length - 1 =
      blanks.length + 1 + middle.length := by
    simp only [List.length_cons, List.length_append, List.length_nil]
    omega
  rw [hlast] at hread
  simpa using hread

/-- The block at the start of a buffer is a given one exactly if its lines stand there. -/
theorem findFrontmatter_linesOf_iff {first : Line}
    (hblock : IsFrontmatter blanks opening middle closing)
    (hblanks : ∀ line ∈ front, isBlank line = true) (hfirst : isFence first = true) :
    (∃ found, findFrontmatter (front ++ first :: back) = some found ∧
        (front ++ first :: back).linesOf found = opening :: (middle ++ [closing])) ↔
      first = opening ∧ middle ++ [closing] <+: back := by
  constructor
  · rintro ⟨found, hfound, hlinesOf⟩
    obtain ⟨front', opening', middle', closing', back', hblock', hparts, rfl⟩ :=
      findFrontmatter_eq_some_iff.mp hfound
    -- Less its blank lines, a buffer has one first line, so both blocks open there.
    have hdrop := congrArg (List.dropWhile isBlank) hparts
    rw [dropWhile_isBlank_append hblanks (isBlank_eq_false_of_isFence hfirst),
      dropWhile_isBlank_append hblock'.blank (isBlank_eq_false_of_isFence hblock'.opens)] at hdrop
    obtain ⟨rfl, rfl⟩ := List.cons.inj hdrop
    rw [hparts, linesOf_frontmatter] at hlinesOf
    obtain ⟨rfl, hrest⟩ := List.cons.inj hlinesOf
    rw [← hrest]
    exact ⟨rfl, back', by simp⟩
  · rintro ⟨rfl, back', rfl⟩
    have hfront : IsFrontmatter front first middle closing :=
      ⟨hblanks, hblock.opens, hblock.inside, hblock.closes⟩
    rw [List.append_assoc, List.singleton_append]
    exact ⟨_, findFrontmatter_append hfront back', linesOf_frontmatter _ _ _ _ _⟩

theorem isBlank_withoutReturn (h : isBlank line = true) : isBlank (withoutReturn line) = true :=
  List.all_eq_true.mpr fun c hc =>
    List.all_eq_true.mp h c ((withoutReturn_isPrefix line).subset hc)

theorem isFence_withoutReturn (h : isFence line = true) : isFence (withoutReturn line) = true := by
  obtain ⟨rest, rfl, hrest⟩ := isMarkLine_iff.mp h
  refine isMarkLine_iff.mpr ⟨withoutReturn rest, ?_, isBlank_withoutReturn hrest⟩
  have hdashes : fenceLine = ['-', '-', '-'] := by decide
  rw [hdashes]
  cases rest with
  | nil => rfl
  | cons c rest =>
    simp only [List.cons_append, List.nil_append, withoutReturn_cons_cons]

theorem withoutReturn_eq_self_iff : withoutReturn line = line ↔ line.getLast? ≠ some '\r' := by
  constructor
  · intro h hlast
    rw [withoutReturn, if_pos hlast] at h
    have hlength := congrArg List.length h
    have hpos : 0 < line.length := List.length_pos_iff.mpr fun hnil => by
      rw [hnil] at hlast
      cases hlast
    rw [List.length_dropLast] at hlength
    omega
  · exact withoutReturn_of_getLast?

/-! ### Footers and the block -/

theorem relined_cons_of_clean {first : Line} (hfeed : '\n' ∉ first)
    (hreturn : first.getLast? ≠ some '\r') (more : Buffer) :
    ∃ rest, relined (first :: more) = first :: rest := by
  cases more with
  | nil => exact ⟨[], splitLines_of_not_mem hfeed⟩
  | cons line more =>
    rw [relined_cons first (List.cons_ne_nil line more), closedLines_of_not_mem hfeed,
      withoutReturn_of_getLast? hreturn]
    exact ⟨_, rfl⟩

theorem placeFooters_ne_nil (h : lines ≠ []) :
    placeFooters levels rule opened endsBlank lines ≠ [] := by
  obtain ⟨line, lines, rfl⟩ := List.exists_cons_of_ne_nil h
  simp [placeFooters]

theorem eq_of_append_cons_isPrefix {before before' after after' : Buffer} {line line' : Line}
    (hlength : before.length = before'.length)
    (h : before ++ line :: after <+: before' ++ line' :: after') : line = line' := by
  obtain ⟨more, hmore⟩ := h
  rw [List.append_assoc, List.cons_append] at hmore
  exact (List.cons.inj (List.append_inj_right hmore hlength)).1

/-- A heading of the block stands inside it, below the opening fence. -/
theorem IsFrontmatter.exists_before (h : IsFrontmatter blanks opening middle closing)
    {before after : Buffer} {title : Line} (htitle : isHeadingLine title = true)
    (heq : blanks ++ opening :: (middle ++ [closing]) = before ++ title :: after) :
    ∃ inner, before = blanks ++ opening :: inner ∧
      middle ++ [closing] = inner ++ title :: after := by
  have hopening : opening ≠ title := by
    rintro rfl
    rw [isHeadingLine_eq_false_of_isFence h.opens] at htitle
    cases htitle
  rcases List.append_eq_append_iff.mp heq with ⟨inner, rfl, hinner⟩ | ⟨inner, rfl, hinner⟩
  · cases inner with
    | nil => exact absurd (List.cons.inj hinner).1 hopening
    | cons line inner =>
      obtain ⟨rfl, hrest⟩ := List.cons.inj hinner
      exact ⟨inner, rfl, hrest⟩
  · cases inner with
    | nil => exact absurd (List.cons.inj hinner).1.symm hopening
    | cons line inner =>
      obtain ⟨rfl, -⟩ := List.cons.inj hinner
      have hblank := h.blank title (by simp)
      rw [isBlank_eq_false_of_isHeadingLine htitle] at hblank
      cases hblank

theorem IsFrontmatter.isBlank_of_mem_map (h : IsFrontmatter blanks opening middle closing) :
    ∀ line ∈ blanks.map withoutReturn, isBlank line = true := by
  intro line hline
  obtain ⟨source, hsource, rfl⟩ := List.mem_map.mp hline
  exact isBlank_withoutReturn (h.blank source hsource)

/-- Some lines stand at the front as they were written exactly if none of them loses a carriage
return. -/
theorem isPrefix_map_withoutReturn_append_iff (lines rest : Buffer) :
    lines <+: lines.map withoutReturn ++ rest ↔ ∀ line ∈ lines, line.getLast? ≠ some '\r' := by
  have hsame : lines = lines.map withoutReturn ↔ ∀ line ∈ lines, withoutReturn line = line := by
    conv => lhs; lhs; rw [← List.map_id lines]
    rw [eq_comm, List.map_inj_left]
    rfl
  rw [List.prefix_iff_eq_take, List.take_append_of_le_length (by simp),
    List.take_of_length_le (by simp), hsame]
  simp only [withoutReturn_eq_self_iff]

/-- Where no section ends in the block, it is read as it was exactly if none of its lines loses a
carriage return. -/
theorem findFrontmatter_placeFooters_of_nests (hblock : IsFrontmatter blanks opening middle closing)
    (hfeed : ∀ line ∈ blanks ++ opening :: (middle ++ [closing]), '\n' ∉ line) (hback : back ≠ [])
    (hnests : Nests levels [] (blanks ++ opening :: (middle ++ [closing])))
    (hlines : lines = relined (placeFooters levels rule [] false
      (blanks ++ opening :: (middle ++ [closing]) ++ back))) :
    (∃ found, findFrontmatter lines = some found ∧
        lines.linesOf found = opening :: (middle ++ [closing])) ↔
      ∀ line ∈ opening :: (middle ++ [closing]), line.getLast? ≠ some '\r' := by
  obtain ⟨opened, endsBlank, hplaced⟩ := placeFooters_append_of_nests hnests rule false back
  have hparts : lines = blanks.map withoutReturn ++ withoutReturn opening ::
      ((middle ++ [closing]).map withoutReturn ++
        relined (placeFooters levels rule opened endsBlank back)) := by
    rw [hlines, hplaced, relined_append _ (placeFooters_ne_nil hback), flatMap_closedLines hfeed,
      List.map_append, List.map_cons, List.append_assoc, List.cons_append]
  rw [hparts, findFrontmatter_linesOf_iff hblock hblock.isBlank_of_mem_map
    (isFence_withoutReturn hblock.opens), isPrefix_map_withoutReturn_append_iff,
    List.forall_mem_cons, withoutReturn_eq_self_iff]

/-- Where a section ends in the block, the first footer stands where the block has a heading. -/
theorem findFrontmatter_placeFooters_of_not_nests
    (hblock : IsFrontmatter blanks opening middle closing)
    (hfeed : ∀ line ∈ blanks ++ opening :: (middle ++ [closing]), '\n' ∉ line)
    (hnests : ¬Nests levels [] (blanks ++ opening :: (middle ++ [closing])))
    (hlines : lines = relined (placeFooters levels rule [] false
      (blanks ++ opening :: (middle ++ [closing]) ++ back))) :
    ¬∃ found, findFrontmatter lines = some found ∧
        lines.linesOf found = opening :: (middle ++ [closing]) := by
  intro h
  obtain ⟨before, title, after, first, more, hfront, htitle, hfirst, hplaced⟩ :=
    exists_of_not_nests hnests rule false back
  obtain ⟨inner, rfl, hinner⟩ := hblock.exists_before htitle hfront
  have hclean : '\n' ∉ first ∧ first.getLast? ≠ some '\r' ∧ isHeadingLine first = false := by
    rcases hfirst with rfl | rfl <;> decide
  obtain ⟨rest, hrest⟩ := relined_cons_of_clean hclean.1 hclean.2.1 more
  have hbefore : ∀ line ∈ blanks ++ opening :: inner, '\n' ∉ line := fun line hline =>
    hfeed line (hfront ▸ List.mem_append_left _ hline)
  have hparts : lines = blanks.map withoutReturn ++ withoutReturn opening ::
      (inner.map withoutReturn ++ first :: rest) := by
    rw [hlines, hplaced, relined_append _ (List.cons_ne_nil first more),
      flatMap_closedLines hbefore, hrest, List.map_append, List.map_cons, List.append_assoc,
      List.cons_append]
  rw [hparts, findFrontmatter_linesOf_iff hblock hblock.isBlank_of_mem_map
    (isFence_withoutReturn hblock.opens), hinner] at h
  -- Read back, the block would have the footer line where it has a heading.
  have heq : title = first := eq_of_append_cons_isPrefix (by simp) h.2
  rw [heq, hclean.2.2] at htitle
  cases htitle

/-- With new footers put in, the block is read as it was exactly if no section ends in it and none
of its lines loses a carriage return. -/
theorem findFrontmatter_placeFooters_iff (hblock : IsFrontmatter blanks opening middle closing)
    (hfeed : ∀ line ∈ blanks ++ opening :: (middle ++ [closing]), '\n' ∉ line) (hback : back ≠ [])
    (levels : List Nat) (rule : Line) (hlines : lines = relined (placeFooters levels rule [] false
      (blanks ++ opening :: (middle ++ [closing]) ++ back))) :
    (∃ found, findFrontmatter lines = some found ∧
        lines.linesOf found = opening :: (middle ++ [closing])) ↔
      (∀ line ∈ opening :: (middle ++ [closing]), line.getLast? ≠ some '\r') ∧
        Nests levels [] (blanks ++ opening :: (middle ++ [closing])) := by
  by_cases hnests : Nests levels [] (blanks ++ opening :: (middle ++ [closing]))
  · rw [findFrontmatter_placeFooters_of_nests hblock hfeed hback hnests hlines, and_iff_left hnests]
  · exact iff_of_false
      (findFrontmatter_placeFooters_of_not_nests hblock hfeed hnests hlines) fun h => hnests h.2

/-! ### The whole note -/

theorem noOldFooter_of_footerSpans (h : footerSpans lines levels rule = []) :
    NoOldFooter levels none lines := by
  have hkept : lines = keptLines levels rule none 0 lines := by
    rw [← without_footerSpans, h, without_eq_keptFrom, keptFrom_nil]
  rw [hkept]
  exact noOldFooter_keptLines (Or.inl rfl)

theorem one_le_coverAfter (h : ∀ level ∈ cover, 1 ≤ level) (lines : Buffer) :
    ∀ level ∈ coverAfter levels cover lines, 1 ≤ level := by
  induction lines generalizing cover with
  | nil => exact h
  | cons line lines ih => exact ih (one_le_nextCover h line)

/-- A line that is always kept: a title, or an empty line on top. -/
theorem keptLines_ne_nil {above : Buffer} {stop : Line} (hcover : ∀ level ∈ cover, 1 ≤ level)
    (hstop : (∃ text, headingOfLine? stop = some (1, text)) ∨ above = [] ∧ stop = [])
    (levels : List Nat) (rule : Line) (below : Buffer) :
    keptLines levels rule cover 0 (above ++ stop :: below) ≠ [] := by
  rcases hstop with ⟨text, htitle⟩ | ⟨rfl, rfl⟩
  · rw [keptLines_append_title htitle hcover (Nat.zero_le _)]
    simp
  · rw [List.nil_append, keptLines_cons_of_kept (Or.inr (by decide))]
    simp

theorem exists_ensureToc_eq {stop : Line} {anchor : Nat} (hquiet : ∀ line ∈ front ++ [stop],
      isStartMarker line = false ∧ isBareEndMarker line = false)
    (hplace : front.length + 1 ≤ anchor + 2) (below : Buffer) (depth : Nat) :
    ∃ more, ensureToc (front ++ stop :: below) anchor depth = front ++ stop :: more := by
  have hstarts : front ++ [stop] <+: ensureToc (front ++ [stop] ++ below) anchor depth :=
    isPrefix_ensureToc (fun line hline => (hquiet line hline).1)
      (fun line hline => (hquiet line hline).2) (by simpa using hplace)
  obtain ⟨more, hmore⟩ := hstarts
  refine ⟨more, ?_⟩
  rw [List.append_assoc, List.append_assoc] at hmore
  exact hmore.symm

/-- Below the block stands a line that stays: the title that was found, or the empty line above the
title that was made. -/
theorem Entitled.exists_stop {above below : Buffer} {title : Line} {pretty : Bool}
    (hcut : Entitled (front ++ back) front.length name pretty above title below) (tail : Buffer) :
    ∃ between stop after,
      withoutAnchors above ++ title :: tail = withoutAnchors front ++ between ++ stop :: after ∧
      (withoutAnchors front ++ between).length ≤ (withoutAnchors above).length ∧
      (∀ line ∈ withoutAnchors front ++ between ++ [stop], line ∈ front ++ back ∨ line = []) ∧
      ((∃ text, headingOfLine? stop = some (1, text)) ∨ between = [] ∧ stop = []) := by
  obtain ⟨between, habove, -⟩ := hcut.exists_above
  -- What stops the search is the title, or the empty line above a title that was made.
  generalize hlines : front ++ back = lines at hcut ⊢
  cases hcut with
  | found hparts _ _ htitle =>
    obtain ⟨text, htext⟩ := Option.isSome_iff_exists.mp htitle
    rw [habove] at hparts ⊢
    refine ⟨withoutAnchors between, title, tail, by rw [withoutAnchors_append], by simp, ?_,
      Or.inl ⟨text, titleOfLine?_eq_some_iff.mp htext⟩⟩
    intro line hline
    left
    rw [hparts]
    rw [← withoutAnchors_append, List.mem_append, List.mem_singleton] at hline
    rcases hline with hline | rfl
    · exact List.mem_append_left _ (mem_withoutAnchors hline)
    · simp
  | made =>
    have hgap : withoutAnchors [([] : Line)] = [[]] := by decide
    rw [← hlines, List.take_left, withoutAnchors_append, hgap]
    refine ⟨[], [], titleLine (titleOfName name pretty) :: tail, by simp, by simp, ?_,
      Or.inr ⟨rfl, rfl⟩⟩
    intro line hline
    rw [List.append_nil, List.mem_append, List.mem_singleton] at hline
    rcases hline with hline | rfl
    · exact Or.inl (List.mem_append_left _ (mem_withoutAnchors hline))
    · exact Or.inr rfl

/-- The stages up to the table of contents leave the block as it is, less its anchors, and below it
the title or an empty line. -/
theorem exists_listedLines_eq (hends : EndsFrontmatter front)
    (hmarkers : ∀ line ∈ front ++ back, isMarkerLine line = false) (name : List Char)
    (options : Options) : ∃ above stop below,
      listedLines (front ++ back) name options = withoutAnchors front ++ (above ++ stop :: below) ∧
        ((∃ text, headingOfLine? stop = some (1, text)) ∨ above = [] ∧ stop = []) := by
  obtain ⟨above, title, below, hcut, htop⟩ := arrangeTop_eq (front ++ back) name options
  rw [titleStart_append hends] at hcut
  obtain ⟨between, stop, after, hparts, hlength, hmem, hstop⟩ := hcut.exists_stop
    ([] :: topAnchor :: ensureEmptyAt (withoutAnchors (belowGap below)) 0)
  have hquiet : ∀ line ∈ withoutAnchors front ++ between ++ [stop],
      isStartMarker line = false ∧ isBareEndMarker line = false := by
    intro line hline
    rcases hmem line hline with hline | rfl
    · exact not_marker_parts (hmarkers line hline)
    · exact ⟨by decide, by decide⟩
  rw [listedLines, htop, hparts]
  have hplace : (withoutAnchors front ++ between).length + 1 ≤
      (withoutAnchors above).length + 2 + 2 := by omega
  obtain ⟨more, hmore⟩ := exists_ensureToc_eq hquiet hplace after options.maxDepth
  exact ⟨between, stop, more, by rw [hmore, List.append_assoc], hstop⟩

/-- The stage of the footers, on a buffer that starts with a block without footers to be renewed. -/
theorem renewFooters_listedLines_eq (hblock : IsFrontmatter blanks opening middle closing)
    (hmarkers : ∀ line ∈ blanks ++ opening :: (middle ++ [closing]) ++ back,
      isMarkerLine line = false)
    (hfooters :
      footerSpans (withoutAnchors (blanks ++ opening :: (middle ++ [closing]))) levels rule =
      []) (name : List Char) (options : Options) :
    ∃ rest, rest ≠ [] ∧ renewFooters levels rule [] false
        (listedLines (blanks ++ opening :: (middle ++ [closing]) ++ back) name options) =
      placeFooters levels rule [] false
        (blanks ++ opening :: (withoutAnchors middle ++ [closing]) ++ rest) := by
  obtain ⟨above, stop, below, hlisted, hstop⟩ := exists_listedLines_eq
    ⟨blanks, opening, middle, closing, hblock, rfl⟩ hmarkers name options
  have hold := noOldFooter_of_footerSpans hfooters
  have hcover : ∀ level ∈ coverAfter levels none
      (withoutAnchors (blanks ++ opening :: (middle ++ [closing]))), 1 ≤ level :=
    one_le_coverAfter (by simp) _
  refine ⟨_, keptLines_ne_nil hcover hstop levels rule below, ?_⟩
  rw [renewFooters, hlisted, List.head?_nil, keptLines_append hold, hblock.withoutAnchors_eq]

/-- Where no footer is to be renewed in the frontmatter block, the block comes through, but for its
anchors, exactly if no section of a configured level ends in it and none of its lines ends in a
carriage return. -/
theorem keepsFrontmatter_iff (text name : String) (options : Options)
    (hneeds : needsNavigation text = true)
    (hspan : findFrontmatter (splitLines text.toList) = some span)
    (hmarkers : ∀ line ∈ splitLines text.toList, isMarkerLine line = false)
    (hfooters : footerSpans (withoutAnchors ((splitLines text.toList).take (span.last + 1)))
      options.normalized.footerLevels options.normalized.rule = []) :
    KeepsFrontmatter (splitLines text.toList) (splitLines (arrange text name options).toList) span ↔
      (∀ line ∈ withoutAnchors ((splitLines text.toList).linesOf span),
          line.getLast? ≠ some '\r') ∧
        Nests options.normalized.footerLevels []
          (withoutAnchors ((splitLines text.toList).take (span.last + 1))) := by
  have hused : ruleLine options.normalized.rule = options.normalized.rule :=
    ruleLine_usableRule options
  have hfeed : ∀ line ∈ splitLines text.toList, '\n' ∉ line := fun line hline =>
    not_mem_of_mem_splitLines hline
  rw [splitLines_arrange hneeds, arrangeLines_eq, hused]
  generalize splitLines text.toList = lines at *
  obtain ⟨blanks, opening, middle, closing, back, hblock, hlines, rfl⟩ :=
    findFrontmatter_eq_some_iff.mp hspan
  have hbare : IsFrontmatter [] opening middle closing :=
    ⟨fun _ h => (List.not_mem_nil h).elim, hblock.opens, hblock.inside, hblock.closes⟩
  have hcut : lines = blanks ++ opening :: (middle ++ [closing]) ++ back := by
    rw [hlines]
    simp
  have htake : lines.take (blanks.length + 1 + middle.length + 1) =
      blanks ++ opening :: (middle ++ [closing]) := by
    rw [hcut]
    refine List.take_left' ?_
    simp only [List.length_append, List.length_cons, List.length_nil]
    omega
  have hblockLines :
      withoutAnchors (lines.linesOf ⟨blanks.length, blanks.length + 1 + middle.length⟩) =
      opening :: (withoutAnchors middle ++ [closing]) := by
    rw [hlines, linesOf_frontmatter]
    exact hbare.withoutAnchors_eq
  rw [htake] at hfooters
  obtain ⟨rest, hrest, hplaced⟩ :=
    renewFooters_listedLines_eq hblock (hcut ▸ hmarkers) hfooters name.toList options.normalized
  rw [KeepsFrontmatter, hblockLines, htake, hblock.withoutAnchors_eq]
  refine findFrontmatter_placeFooters_iff hblock.withoutAnchors (fun line hline => ?_) hrest
    options.normalized.footerLevels options.normalized.rule (by rw [hcut, hplaced])
  rw [← hblock.withoutAnchors_eq] at hline
  exact hfeed line (hcut ▸ List.mem_append_left _ (mem_withoutAnchors hline))

/-- A block of a key and an anchor comes through without the anchor. -/
theorem keepsFrontmatter_key :
    needsNavigation "---\nkey: 1\n^top\n---\n# Note\n## One" = true ∧
      KeepsFrontmatter (splitLines "---\nkey: 1\n^top\n---\n# Note\n## One".toList)
        (splitLines (arrange "---\nkey: 1\n^top\n---\n# Note\n## One" "note" {}).toList)
        ⟨0, 3⟩ := by
  refine ⟨by decide +kernel, (keepsFrontmatter_iff _ _ _ ?_ ?_ ?_ ?_).mpr ⟨?_, ?_, ?_⟩⟩
  · decide +kernel
  · decide +kernel
  · decide +kernel
  · decide +kernel
  · decide +kernel
  · decide +kernel
  · decide +kernel

/-- A footer is put into a block with two lines that pass for headings, and the block ends at its
rule line. -/
theorem keepsFrontmatter_false_of_headings :
    needsNavigation "---\n## x\n## y\n---\n# T\n## A\nb" = true ∧
      findFrontmatter (splitLines "---\n## x\n## y\n---\n# T\n## A\nb".toList) = some ⟨0, 3⟩ ∧
      ¬ KeepsFrontmatter (splitLines "---\n## x\n## y\n---\n# T\n## A\nb".toList)
        (splitLines (arrange "---\n## x\n## y\n---\n# T\n## A\nb" "note" {}).toList) ⟨0, 3⟩ := by
  have hneeds : needsNavigation "---\n## x\n## y\n---\n# T\n## A\nb" = true := by decide +kernel
  have hlines :
      splitLines "---\n## x\n## y\n---\n# T\n## A\nb".toList =
        ["---".toList, "## x".toList, "## y".toList, "---".toList, "# T".toList, "## A".toList,
          "b".toList] := by decide +kernel
  rw [splitLines_arrange hneeds, hlines]
  refine ⟨hneeds, by decide +kernel, ?_⟩
  rintro ⟨found, hfound, hblock⟩
  have hread : findFrontmatter (relined (arrangeLines ["---".toList, "## x".toList, "## y".toList,
      "---".toList, "# T".toList, "## A".toList, "b".toList] "note".toList
        ({} : Options).normalized)) = some ⟨0, 5⟩ := by
    decide +kernel
  rw [hread, Option.some.injEq] at hfound
  rw [← hfound] at hblock
  revert hblock
  decide +kernel

end Waymark
