import Waymark.Proofs.Blocks

/-!
# What the stage of the table of contents leaves

Below the anchor of a note the stage leaves one fresh table of contents, and nothing that
could be taken for another: what stood there of old tables is gone, all other lines are
kept in order. The lines of a table of contents are no headings, so the outline changes
only by the headings that were taken for markers.

## Main results

* `ensureToc_stale` — the buffer that a stale table of contents is replaced in
* `mem_ensureToc_iff`, `outline_ensureToc` — the lines and the outline that the stage leaves
* `isPrefix_ensureToc` — lines above the first marker stay where they are
* `tocBlocks_listed` — a table of contents is one block
* `isTocCurrent_of_quiet` — a table of contents is left alone where no other marker stands
* `exists_of_isTocCurrent` — and only there
-/

namespace Waymark

variable {lines front middle back tail : Buffer} {line title : Line} {inside index : Nat}
variable {anchor depth place : Nat}

/-! ### Blocks of a part -/

theorem tocBlocksFrom_append_heading (h : isHeadingLine title = true)
    (hinside : inside ≤ front.length) : tocBlocksFrom inside index (front ++ title :: back) =
      tocBlocksFrom inside index front ++
        tocBlocksFrom 0 (index + front.length) (title :: back) := by
  induction front generalizing inside index with
  | nil =>
    obtain rfl : inside = 0 := Nat.le_zero.mp hinside
    rfl
  | cons line front ih =>
    rw [add_length_cons]
    cases inside with
    | succ inside => exact ih (Nat.le_of_succ_le_succ hinside)
    | zero =>
      rw [List.cons_append, tocBlocksFrom, tocBlocksFrom, blockReach_append_heading h]
      split
      · exact congrArg (_ :: ·) (ih (blockReach_le_length _ _))
      · exact ih (Nat.zero_le _)

theorem tocBlocksFrom_append_quiet (h : ∀ line ∈ front, isStartMarker line = false) :
    tocBlocksFrom 0 index (front ++ back) = tocBlocksFrom 0 (index + front.length) back := by
  induction front generalizing index with
  | nil => rfl
  | cons line front ih =>
    rw [add_length_cons, List.cons_append, tocBlocksFrom,
      if_neg (by simp [h line List.mem_cons_self])]
    exact ih fun l hl => h l (List.mem_cons_of_mem _ hl)

theorem tocBlocksFrom_eq_nil (h : ∀ line ∈ lines, isStartMarker line = false) :
    tocBlocksFrom 0 index lines = [] := by
  have happend : tocBlocksFrom 0 index (lines ++ []) =
      tocBlocksFrom 0 (index + lines.length) [] := tocBlocksFrom_append_quiet h
  rwa [List.append_nil] at happend

/-- The lines that a block was found to reach over are passed by. -/
theorem tocBlocksFrom_append_inside (front back : Buffer) (index : Nat) :
    tocBlocksFrom front.length index (front ++ back) =
      tocBlocksFrom 0 (index + front.length) back := by
  induction front generalizing index with
  | nil => rfl
  | cons line front ih =>
    rw [add_length_cons]
    exact ih _

theorem coversLine_tocBlocksFrom_of_lt {i : Nat} (h : i < index + inside) :
    coversLine (tocBlocksFrom inside index lines) i = false := by
  rw [tocBlocksFrom_eq_scanSpans]
  exact coversLine_scanSpans_of_lt h

section Split

variable (hsplit : tocBlocks (front ++ back) =
    tocBlocks front ++ tocBlocksFrom 0 front.length back)

include hsplit

/-- Where no block reaches from one part into the next, each part is cleared by itself. -/
theorem keptFrom_tocSpans_front :
    keptFrom (tocSpans (front ++ back)) 0 front = withoutToc front := by
  have hpart := keptFrom_tocSpans [] front back
  rw [List.nil_append, List.length_nil] at hpart
  have hblocks :
      keptFrom (tocBlocks (front ++ back)) 0 front = keptFrom (tocBlocks front) 0 front := by
    refine keptFrom_congr fun i _ hi => ?_
    rw [hsplit, coversLine_append, coversLine_tocBlocksFrom_of_lt (by omega), Bool.or_false]
  rw [hpart, hblocks, ← without_eq_keptFrom, tocBlocks, tocBlocksFrom_eq_scanSpans,
    without_scanSpans, scanKept_blockReach?]
  rfl

theorem keptFrom_tocSpans_back :
    keptFrom (tocSpans (front ++ back)) front.length back = withoutToc back := by
  have hpart := keptFrom_tocSpans front back []
  rw [List.append_nil] at hpart
  have hblocks : keptFrom (tocBlocks (front ++ back)) front.length back = outsideBlocks 0 back := by
    rw [← scanKept_blockReach? 0 front.length]
    refine keptFrom_scanSpans fun i hi => ?_
    rw [hsplit, coversLine_append, tocBlocksFrom_eq_scanSpans,
      coversLine_eq_false_of_le (tidySpans_tocBlocks front) hi]
    simp [Nat.not_lt.mpr hi]
  rw [hpart, hblocks]
  rfl

end Split

/-! ### The lines of a table of contents -/

/-- The lines of a table of contents that are no links. -/
def fixedTocLines : List Line :=
  startMarkerLines ++ [tocCaption, noEntriesLine] ++ endMarkerLines

/-- A link leads to a heading of the buffer. -/
theorem mem_tocEntries {entry : Line} {depth : Nat}
    (h : entry ∈ tocEntries (headings lines) depth) :
    ∃ head source, source ∈ lines ∧ headingOfLine? source = some (head.level, head.text) ∧
      entry = tocEntry head := by
  obtain ⟨head, hhead, rfl⟩ := List.mem_map.mp h
  have hmem : (head.level, head.text) ∈ outline lines :=
    List.mem_map.mpr ⟨head, List.mem_of_mem_filter hhead, rfl⟩
  rw [outline_eq_filterMap] at hmem
  obtain ⟨source, hsource, hpair⟩ := List.mem_filterMap.mp hmem
  exact ⟨head, source, hsource, hpair, rfl⟩

/-- A line of a table of contents is a fixed one or links to a heading of the buffer. -/
theorem mem_tocListing (h : line ∈ tocListing lines depth) : line ∈ fixedTocLines ∨
    ∃ head source, source ∈ lines ∧ headingOfLine? source = some (head.level, head.text) ∧
      line = tocEntry head := by
  simp only [tocListing, List.mem_append] at h
  simp only [fixedTocLines, List.mem_append, List.mem_cons]
  rcases h with ((h | h) | h) | h
  · exact Or.inl (Or.inl (Or.inl h))
  · exact Or.inl (Or.inl (Or.inr (Or.inl (List.mem_singleton.mp h))))
  · split at h
    · exact Or.inl (Or.inl (Or.inr (Or.inr (Or.inl (List.mem_singleton.mp h)))))
    · exact Or.inr (mem_tocEntries h)
  · exact Or.inl (Or.inr h)

/-- No line of a table of contents starts as any other line that the program looks for. -/
theorem head?_of_mem_tocListing (h : line ∈ tocListing lines depth) :
    line.head? = some '<' ∨ line.head? = some '%' ∨ line.head? = some '>' := by
  rcases mem_tocListing h with h | ⟨head, -, -, -, rfl⟩
  · have hfixed : ∀ l ∈ fixedTocLines,
        l.head? = some '<' ∨ l.head? = some '%' ∨ l.head? = some '>' := by decide
    exact hfixed line h
  · exact Or.inr (Or.inr rfl)

theorem isHeadingLine_eq_false_of_mem_tocListing (h : line ∈ tocListing lines depth) :
    isHeadingLine line = false := by
  apply isHeadingLine_eq_false_of_head
  rcases head?_of_mem_tocListing h with h | h | h <;> simp [h]

theorem isFooterLine_eq_false_of_mem_tocListing (h : line ∈ tocListing lines depth) :
    isFooterLine line = false := by
  apply isFooterLine_eq_false_of_head
  rcases head?_of_mem_tocListing h with h | h | h <;> simp [h]

theorem isBlank_eq_false_of_mem_tocListing (h : line ∈ tocListing lines depth) :
    isBlank line = false := by
  rcases head?_of_mem_tocListing h with h | h | h <;>
    exact isBlank_eq_false_of_head h (by decide)

theorem ne_topAnchor_of_mem_tocListing (h : line ∈ tocListing lines depth) :
    line ≠ topAnchor := by
  rintro rfl
  rcases head?_of_mem_tocListing h with h | h | h <;> simp [topAnchor] at h

/-- What stands between the markers of a table of contents. -/
def tocBody (lines : Buffer) (depth : Nat) : List Line :=
  let entries := tocEntries (headings lines) (effectiveDepth depth)
  tocCaption :: if entries.isEmpty then [noEntriesLine] else entries

theorem tocListing_eq (lines : Buffer) (depth : Nat) :
    tocListing lines depth = startMarkerLines ++ tocBody lines depth ++ endMarkerLines := by
  simp [tocListing, tocBody]

theorem length_tocListing_pos (lines : Buffer) (depth : Nat) :
    0 < (tocListing lines depth).length := by
  rw [tocListing_eq]
  simp [startMarkerLines]

theorem mem_tocListing_of_mem_tocBody (h : line ∈ tocBody lines depth) :
    line ∈ tocListing lines depth := by
  rw [tocListing_eq]
  simp [h]

/-- Where no heading mentions a start marker, no line between the markers does. -/
theorem isStartMarker_eq_false_of_mem_tocBody
    (hclean : ∀ line ∈ lines, isHeadingLine line = true → isStartMarker line = false)
    (h : line ∈ tocBody lines depth) : isStartMarker line = false := by
  rcases List.mem_cons.mp h with rfl | h
  · decide
  split at h
  · rw [List.mem_singleton.mp h]
    decide
  · obtain ⟨head, source, hsource, hpair, rfl⟩ := mem_tocEntries h
    by_contra hne
    have hmark : isStartMarker (tocEntry ⟨head.line, head.level, head.text⟩) = true := by
      simpa using hne
    have hnot := hclean source hsource (isHeadingLine_iff.mpr ⟨_, _, hpair⟩)
    rw [isStartMarker_tocEntry hpair hmark] at hnot
    cases hnot

/-- Nor is any of them a heading. -/
theorem forall_mem_tocBody
    (hclean : ∀ line ∈ lines, isHeadingLine line = true → isStartMarker line = false) :
    ∀ line ∈ tocBody lines depth, isHeadingLine line = false ∧ isStartMarker line = false :=
  fun _ hline => ⟨isHeadingLine_eq_false_of_mem_tocListing (mem_tocListing_of_mem_tocBody hline),
    isStartMarker_eq_false_of_mem_tocBody hclean hline⟩

/-! ### A current table of contents -/

theorem forall_mem_startMarkerLines : ∀ line ∈ startMarkerLines,
    isHeadingLine line = false ∧ isStartMarker line = true ∧ isEndMarker line = false := by
  decide

theorem forall_mem_endMarkerLines : ∀ line ∈ endMarkerLines,
    isHeadingLine line = false ∧ isEndMarker line = true := by
  decide

/-- Lines between two start and two end markers open with a start marker. -/
theorem exists_between_eq_cons (body : List Line) :
    ∃ first rest, startMarkerLines ++ body ++ endMarkerLines = first :: rest ∧
      isStartMarker first = true := by
  obtain ⟨first, second, hstarts⟩ : ∃ first second : Line, startMarkerLines = [first, second] :=
    ⟨_, _, rfl⟩
  exact ⟨first, second :: (body ++ endMarkerLines), by simp [hstarts],
    (forall_mem_startMarkerLines first (by simp [hstarts])).2.1⟩

/-- A table of contents opens with a start marker. -/
theorem exists_tocListing_eq_cons (lines : Buffer) (depth : Nat) :
    ∃ first rest, tocListing lines depth = first :: rest ∧ isStartMarker first = true := by
  rw [tocListing_eq]
  exact exists_between_eq_cons _

/-- A block between two start and two end markers ends with them, unless more end markers follow. -/
theorem blockReach_between {body : List Line}
    (hbody : ∀ line ∈ body, isHeadingLine line = false ∧ isStartMarker line = false)
    (back : Buffer) :
    blockReach false ((startMarkerLines ++ body ++ endMarkerLines).tail ++ back) =
      (startMarkerLines ++ body ++ endMarkerLines).tail.length + blockReach true back := by
  obtain ⟨outer, second, hstarts⟩ : ∃ outer second : Line, startMarkerLines = [outer, second] :=
    ⟨_, _, rfl⟩
  obtain ⟨inner, last, hends⟩ : ∃ inner last : Line, endMarkerLines = [inner, last] := ⟨_, _, rfl⟩
  have hsecond := forall_mem_startMarkerLines second (by simp [hstarts])
  have hinner := forall_mem_endMarkerLines inner (by simp [hends])
  have hlast := forall_mem_endMarkerLines last (by simp [hends])
  have hrest : blockReach false (body ++ inner :: last :: back) =
      body.length + 2 + blockReach true back := by
    rw [blockReach_append_end hbody hinner.1 hinner.2]
    simp only [blockReach, hlast.1, hlast.2, if_true, Bool.false_eq_true, if_false]
    omega
  have htail : (startMarkerLines ++ body ++ endMarkerLines).tail =
      second :: (body ++ [inner, last]) := by
    rw [hstarts, hends]
    simp
  rw [htail, List.cons_append, List.append_assoc, List.cons_append, List.cons_append,
    List.nil_append, blockReach_cons_start hsecond.1 hsecond.2.2 (by omega), hrest]
  simp only [List.length_cons, List.length_append, List.length_nil]
  omega

/-- Lines between two start and two end markers that no other marker follows are one block. -/
theorem tocBlocksFrom_between {body : List Line}
    (hbody : ∀ line ∈ body, isHeadingLine line = false ∧ isStartMarker line = false)
    (hreach : blockReach true back = 0) :
    tocBlocksFrom 0 index (startMarkerLines ++ body ++ endMarkerLines ++ back) =
      ⟨index, index + (startMarkerLines ++ body ++ endMarkerLines).length - 1⟩ ::
        tocBlocksFrom 0 (index + (startMarkerLines ++ body ++ endMarkerLines).length) back := by
  obtain ⟨first, rest, hblock, hfirst⟩ := exists_between_eq_cons body
  have hinside := blockReach_between hbody back
  rw [hblock, hreach, List.tail_cons, Nat.add_zero] at hinside
  rw [hblock, List.cons_append, tocBlocksFrom, if_pos hfirst]
  simp only [hinside, tocBlocksFrom_append_inside, add_length_cons]
  congr 2
  omega

/-- The block that a table of contents opens ends with it, unless more end markers follow. -/
theorem blockReach_tocListing
    (hclean : ∀ line ∈ lines, isHeadingLine line = true → isStartMarker line = false)
    (depth : Nat) (back : Buffer) :
    blockReach false ((tocListing lines depth).tail ++ back) =
      (tocListing lines depth).tail.length + blockReach true back := by
  rw [tocListing_eq]
  exact blockReach_between (forall_mem_tocBody hclean) back

/-- A table of contents that no other marker follows is one block. -/
theorem tocBlocksFrom_tocListing
    (hclean : ∀ line ∈ lines, isHeadingLine line = true → isStartMarker line = false)
    (hreach : blockReach true back = 0) : tocBlocksFrom 0 index (tocListing lines depth ++ back) =
      ⟨index, index + (tocListing lines depth).length - 1⟩ ::
        tocBlocksFrom 0 (index + (tocListing lines depth).length) back := by
  rw [tocListing_eq]
  exact tocBlocksFrom_between (forall_mem_tocBody hclean) hreach

/-- A table of contents is the one block of a buffer in which no other line opens one. -/
theorem tocBlocks_listed (hlines : lines = front ++ tocListing lines depth ++ back)
    (hclean : ∀ line ∈ lines, isHeadingLine line = true → isStartMarker line = false)
    (hfront : ∀ line ∈ front, isStartMarker line = false)
    (hback : ∀ line ∈ back, isStartMarker line = false) (hreach : blockReach true back = 0) :
    tocBlocks lines =
      [⟨front.length, front.length + (tocListing lines depth).length - 1⟩] := by
  conv_lhs => rw [tocBlocks, hlines, List.append_assoc]
  rw [tocBlocksFrom_append_quiet hfront, Nat.zero_add, tocBlocksFrom_tocListing hclean hreach,
    tocBlocksFrom_eq_nil hback]

/-- No end marker is an orphan where the bare ones all stand in the table of contents. -/
theorem orphanEndMarkers_listed (hlines : lines = front ++ tocListing lines depth ++ back)
    (hblocks : tocBlocks lines =
      [⟨front.length, front.length + (tocListing lines depth).length - 1⟩])
    (hfront : ∀ line ∈ front, isBareEndMarker line = false)
    (hback : ∀ line ∈ back, isBareEndMarker line = false) :
    orphanEndMarkers lines (tocBlocks lines) = [] := by
  rw [orphanEndMarkers_eq_nil_iff]
  intro line i hline hbare
  have hpos := length_tocListing_pos lines depth
  -- A line above or below the table is no end marker, so the index lies within the table.
  have habove : front.length ≤ i := by
    by_contra hi
    conv at hline => rw [hlines]
    rw [List.append_assoc, List.getElem?_append_left (by omega)] at hline
    rw [hfront line (List.mem_of_getElem? hline)] at hbare
    cases hbare
  have hbelow : i < front.length + (tocListing lines depth).length := by
    by_contra hi
    conv at hline => rw [hlines]
    rw [List.getElem?_append_right (by rw [List.length_append]; omega)] at hline
    rw [hback line (List.mem_of_getElem? hline)] at hbare
    cases hbare
  rw [hblocks]
  exact ⟨_, List.mem_singleton_self _, Span.contains_iff.mpr ⟨habove, by dsimp only; omega⟩⟩

/-- A table of contents is left alone where no other marker stands. -/
theorem isTocCurrent_of_quiet
    (hlines : lines = front ++ tocListing lines depth ++ back) (hplace : front.length = place)
    (hclean : ∀ line ∈ lines, isHeadingLine line = true → isMarkerLine line = false)
    (hfront : ∀ line ∈ front, isMarkerLine line = false)
    (hback : ∀ line ∈ back, isMarkerLine line = false) : isTocCurrent lines place depth = true := by
  have hback' := fun line hline => isMarkerLine_eq_false_iff.mp (hback line hline)
  have hblocks := tocBlocks_listed hlines
    (fun l hl hhead => (isMarkerLine_eq_false_iff.mp (hclean l hl hhead)).1)
    (fun l hl => (isMarkerLine_eq_false_iff.mp (hfront l hl)).1) (fun l hl => (hback' l hl).1)
    (blockReach_eq_zero fun l hl _ => (hback' l hl).2)
  have horphans := orphanEndMarkers_listed hlines hblocks
    (fun l hl => (not_marker_parts (hfront l hl)).2) fun l hl => (not_marker_parts (hback l hl)).2
  have hlisting := linesOf_append front (tocListing lines depth) back (length_tocListing_pos _ _)
  rw [← hlines] at hlisting
  rw [hblocks] at horphans
  simp only [isTocCurrent, hblocks]
  rw [horphans, hlisting, hplace]
  simp

/-- A current table of contents stands at its place, and apart from it there is nothing that
the stage would take. -/
theorem exists_of_isTocCurrent (h : isTocCurrent lines place depth = true) :
    ∃ front back, lines = front ++ tocListing lines depth ++ back ∧ front.length = place ∧
      tocSpans lines = [⟨place, place + (tocListing lines depth).length - 1⟩] ∧
        withoutToc lines = front ++ back := by
  rw [isTocCurrent] at h
  split at h
  case h_2 => cases h
  case h_1 block hblocks =>
    simp only [Bool.and_eq_true, List.isEmpty_iff, beq_iff_eq] at h
    obtain ⟨⟨horphans, hfirst⟩, hlisting⟩ := h
    have htidy := tidySpans_tocBlocks lines
    obtain ⟨front, back, hlines, hlength, hlast, hleft⟩ := exists_linesOf
      (htidy.ordered block (by simp [hblocks])) (htidy.bounded block (by simp [hblocks]))
    have hspans : tocSpans lines = [block] := by
      rw [tocSpans, hblocks, horphans, List.append_nil]
    rw [hlisting] at hlines hlast
    refine ⟨front, back, hlines, hlength.trans hfirst, ?_, ?_⟩
    · rw [hspans, ← hfirst, hlast]
    · rw [← without_tocSpans, hspans, hleft]

/-! ### The stage -/

theorem ensureToc_of_not_hasSections
    (h : hasSections (headings lines) (effectiveDepth depth) = false) :
    ensureToc lines anchor depth = withoutToc lines := by
  simp [ensureToc, h, without_tocSpans]

theorem ensureToc_of_isTocCurrent
    (h : hasSections (headings lines) (effectiveDepth depth) = true)
    (hcurrent : isTocCurrent lines (anchor + 2) depth = true) :
    ensureToc lines anchor depth = lines := by
  simp [ensureToc, h, hcurrent]

theorem ensureToc_of_not_isTocCurrent
    (h : hasSections (headings lines) (effectiveDepth depth) = true)
    (hstale : isTocCurrent lines (anchor + 2) depth = false) :
    ensureToc lines anchor depth =
      keptFrom (tocSpans lines) 0 (lines.take (anchor + 2)) ++
        List.replicate (anchor + 2 - lines.length) [] ++ tocLines lines depth ++
          keptFrom (tocSpans lines) (anchor + 2) (lines.drop (anchor + 2)) := by
  rw [← insertAt_without (tidySpans_tocSpans lines)]
  simp [ensureToc, h, hstale]

/-- Above the place of the table of contents and below it, the lines that stay are those that are
not taken out. -/
theorem keptFrom_tocSpans_take_append_drop (lines : Buffer) (place : Nat) :
    keptFrom (tocSpans lines) 0 (lines.take place) ++
      keptFrom (tocSpans lines) place (lines.drop place) = withoutToc lines := by
  rw [← without_tocSpans, without_eq_keptFrom]
  rcases Nat.le_total place lines.length with hle | hle
  · have := keptFrom_append (tocSpans lines) 0 (lines.take place) (lines.drop place)
    rw [List.take_append_drop, List.length_take_of_le hle, Nat.zero_add] at this
    exact this.symm
  · rw [List.take_of_length_le hle, List.drop_of_length_le hle]
    exact List.append_nil _

/-- Apart from the lines that it writes, the stage leaves those that it does not take out. -/
theorem filterMap_ensureToc {α : Type} {read : Line → Option α} (anchor : Nat)
    (hempty : read [] = none) (hlisting : ∀ line ∈ tocListing lines depth, read line = none) :
    (ensureToc lines anchor depth).filterMap read = (withoutToc lines).filterMap read := by
  have hlisting' : (tocListing lines depth).filterMap read = [] :=
    List.filterMap_eq_nil_iff.mpr hlisting
  cases hsections : hasSections (headings lines) (effectiveDepth depth) with
  | false => rw [ensureToc_of_not_hasSections hsections]
  | true =>
    cases hcurrent : isTocCurrent lines (anchor + 2) depth with
    | true =>
      obtain ⟨front, back, hlines, -, -, hleft⟩ := exists_of_isTocCurrent hcurrent
      rw [ensureToc_of_isTocCurrent hsections hcurrent, hleft]
      conv_lhs => rw [hlines]
      simp [hlisting']
    | false =>
      have hpad : (List.replicate (anchor + 2 - lines.length) []).filterMap read = [] :=
        List.filterMap_eq_nil_iff.mpr fun line hline => List.eq_of_mem_replicate hline ▸ hempty
      rw [ensureToc_of_not_isTocCurrent hsections hcurrent]
      simp only [tocLines, List.filterMap_append, hpad, hlisting', List.filterMap_cons_none hempty,
        List.filterMap_nil, List.append_nil]
      rw [← List.filterMap_append, keptFrom_tocSpans_take_append_drop]

theorem filter_ensureToc {test : Line → Bool} (anchor : Nat) (hempty : test [] = false)
    (hlisting : ∀ line ∈ tocListing lines depth, test line = false) :
    (ensureToc lines anchor depth).filter test = (withoutToc lines).filter test := by
  rw [← List.filterMap_eq_filter]
  exact filterMap_ensureToc anchor (by simp [Option.guard, hempty]) fun line hline => by
    simp [Option.guard, hlisting line hline]

/-- The stage leaves the lines that it does not take out, and writes those of a table of contents
where there is something to list. -/
theorem mem_ensureToc_iff (hne : line ≠ []) (anchor depth : Nat) :
    line ∈ ensureToc lines anchor depth ↔ line ∈ withoutToc lines ∨
      (hasSections (headings lines) (effectiveDepth depth) = true ∧
        line ∈ tocListing lines depth) := by
  cases hsections : hasSections (headings lines) (effectiveDepth depth) with
  | false =>
    rw [ensureToc_of_not_hasSections hsections]
    simp
  | true =>
    rw [and_iff_right rfl]
    cases hcurrent : isTocCurrent lines (anchor + 2) depth with
    | true =>
      obtain ⟨front, back, hlines, -, -, hleft⟩ := exists_of_isTocCurrent hcurrent
      rw [ensureToc_of_isTocCurrent hsections hcurrent, hleft]
      conv_lhs => rw [hlines]
      simp only [List.mem_append]
      tauto
    | false =>
      -- The lines that pad the buffer are empty, so the line asked for is none of them.
      have hpad : line ∉ List.replicate (anchor + 2 - lines.length) [] := fun hline =>
        hne (List.eq_of_mem_replicate hline)
      rw [ensureToc_of_not_isTocCurrent hsections hcurrent,
        ← keptFrom_tocSpans_take_append_drop lines (anchor + 2)]
      simp only [tocLines, List.mem_append, List.mem_singleton, hne, hpad]
      tauto

theorem mem_ensureToc (h : line ∈ ensureToc lines anchor depth) :
    line ∈ withoutToc lines ∨ line ∈ tocLines lines depth := by
  by_cases hne : line = []
  · exact Or.inr (by simp [tocLines, hne])
  · exact ((mem_ensureToc_iff hne anchor depth).mp h).imp_right fun hlisted =>
      List.mem_append_left _ hlisted.2

/-- The stage leaves the outline as it is, but for headings that were taken for markers. -/
theorem outline_ensureToc (lines : Buffer) (anchor depth : Nat) :
    outline (ensureToc lines anchor depth) = outline (withoutToc lines) := by
  rw [outline_eq_filterMap, outline_eq_filterMap]
  exact filterMap_ensureToc anchor rfl fun line hline =>
    isHeadingLine_eq_false_iff.mp (isHeadingLine_eq_false_of_mem_tocListing hline)

/-- Lines above the first marker stay where they are. -/
theorem isPrefix_ensureToc (hstart : ∀ line ∈ front, isStartMarker line = false)
    (hend : ∀ line ∈ front, isBareEndMarker line = false) (hplace : front.length ≤ anchor + 2) :
    front <+: ensureToc (front ++ back) anchor depth := by
  cases hsections : hasSections (headings (front ++ back)) (effectiveDepth depth) with
  | false =>
    rw [ensureToc_of_not_hasSections hsections, withoutToc_append hstart hend]
    exact List.prefix_append _ _
  | true =>
    cases hcurrent : isTocCurrent (front ++ back) (anchor + 2) depth with
    | true =>
      rw [ensureToc_of_isTocCurrent hsections hcurrent]
      exact List.prefix_append _ _
    | false =>
      -- No block starts in the front and no end marker stands there, so all of it is kept.
      have hkept : keptFrom (tocSpans (front ++ back)) 0 front = front := by
        have hpart := keptFrom_tocSpans [] front back
        rw [List.nil_append, List.length_nil] at hpart
        rw [hpart, keptFrom_eq_self, List.filter_eq_self.mpr fun l hl => by simp [hend l hl]]
        intro i _ hi
        rw [tocBlocks, tocBlocksFrom_append_quiet hstart]
        exact coversLine_tocBlocksFrom_of_lt (by omega)
      rw [ensureToc_of_not_isTocCurrent hsections hcurrent, List.take_append,
        List.take_of_length_le hplace, keptFrom_append, hkept]
      simp only [List.append_assoc]
      exact List.prefix_append _ _

theorem tocBlocks_append_quiet (htitle : isHeadingLine title = true)
    (hquiet : ∀ line ∈ title :: middle, isStartMarker line = false) (front back : Buffer) :
    tocBlocks (front ++ title :: middle ++ back) = tocBlocks (front ++ title :: middle) ++
      tocBlocksFrom 0 (front ++ title :: middle).length back := by
  have hwhole : tocBlocks (front ++ title :: middle ++ back) =
      tocBlocksFrom 0 0 front ++ tocBlocksFrom 0 (0 + front.length) (title :: middle ++ back) := by
    rw [List.append_assoc]
    exact tocBlocksFrom_append_heading htitle (Nat.zero_le _)
  have hpart : tocBlocks (front ++ title :: middle) =
      tocBlocksFrom 0 0 front ++ tocBlocksFrom 0 (0 + front.length) (title :: middle) :=
    tocBlocksFrom_append_heading htitle (Nat.zero_le _)
  rw [hwhole, hpart, tocBlocksFrom_append_quiet hquiet, tocBlocksFrom_eq_nil hquiet,
    List.append_nil, List.length_append, Nat.zero_add]

/-- A title that mentions no start marker stays, and so do the lines of the anchor. -/
theorem withoutToc_anchored (htitle : isHeadingLine title = true)
    (hmark : isStartMarker title = false) (tail : Buffer) :
    withoutToc (front ++ title :: [] :: topAnchor :: tail) =
      withoutToc front ++ title :: [] :: topAnchor :: withoutToc tail := by
  rw [withoutToc_append_heading htitle,
    withoutToc_cons hmark (isBareEndMarker_eq_false_of_isHeadingLine htitle),
    withoutToc_cons (by decide) (by decide), withoutToc_cons (by decide) (by decide)]

/-- Where the table of contents is stale, all old ones go, and a fresh one is put in two lines
below the anchor, with an empty line above it and one below. -/
theorem ensureToc_stale {lines : Buffer}
    (hlines : lines = front ++ title :: [] :: topAnchor :: tail)
    (htitle : isHeadingLine title = true) (hmark : isStartMarker title = false)
    (hanchor : anchor = front.length + 2) (htail : ∀ line ∈ tail.head?, line = [])
    (hsections : hasSections (headings lines) (effectiveDepth depth) = true)
    (hstale : isTocCurrent lines (anchor + 2) depth = false) :
    ensureToc lines anchor depth = withoutToc front ++ title :: [] :: topAnchor :: [] ::
      (tocLines lines depth ++ withoutToc tail.tail) := by
  have hplain : ∀ line ∈ ([[], topAnchor, []] : List Line), isStartMarker line = false := by
    decide
  have hquiet : ∀ line ∈ title :: [[], topAnchor, []], isStartMarker line = false :=
    List.forall_mem_cons.mpr ⟨hmark, hplain⟩
  rw [ensureToc_of_not_isTocCurrent hsections hstale]
  cases tail with
  | nil =>
    -- The buffer ends with the anchor, so the place of the table is one line behind its end.
    have hlength : lines.length = anchor + 1 := by
      rw [hlines, hanchor]
      simp
    have hpad : anchor + 2 - lines.length = 1 := by omega
    rw [List.take_of_length_le (by omega), List.drop_of_length_le (by omega), hpad,
      ← without_eq_keptFrom, without_tocSpans]
    conv_lhs => rw [hlines]
    rw [withoutToc_anchored htitle hmark, ← hlines]
    simp [keptFrom]
  | cons first tail =>
    obtain rfl : first = [] := htail first rfl
    have hparts : lines = front ++ title :: [[], topAnchor, []] ++ tail := by
      rw [hlines]
      simp
    have hlength : (front ++ title :: [[], topAnchor, []]).length = anchor + 2 := by
      rw [hanchor]
      simp
    -- The title stops every block from above and opens none, so each side is cleared by itself.
    have hsplit := tocBlocks_append_quiet htitle hquiet front tail
    have hfront := keptFrom_tocSpans_front hsplit
    have hback := keptFrom_tocSpans_back hsplit
    rw [← hparts] at hfront hback
    rw [hlength] at hback
    have htake : lines.take (anchor + 2) = front ++ title :: [[], topAnchor, []] := by
      rw [hparts, ← hlength, List.take_left]
    have hdrop : lines.drop (anchor + 2) = tail := by
      rw [hparts, ← hlength, List.drop_left]
    have hpad : anchor + 2 - lines.length = 0 := by
      rw [hparts, List.length_append]
      omega
    rw [htake, hdrop, hfront, hback, hpad, withoutToc_anchored htitle hmark,
      withoutToc_cons (by decide) (by decide)]
    simp

end Waymark
