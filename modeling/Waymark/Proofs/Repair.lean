import Waymark.Proofs.OnlyBlock
import Waymark.Proofs.Order
import Waymark.Proofs.Outcome

/-!
# Repairing a table of contents

A settled note whose table of contents is made stale and that is arranged again does not come
out as it was. The stale block goes from its first to its last marker, and the fresh one is put
in with an empty line below it, while the empty lines that stood below the stale one all stay.
So every repair adds one empty line, and the note comes out as it was only if nothing was stale.

A table of contents that comes out in the place of the block would have to be the block and leave
one empty line less below it than there is; or it would reach over the end of the block, or end
above it, and then the block would not have been found to end where it does.

## Main results

* `ne_nil_cons_renewFooters` — empty lines do not get fewer
* `OnlyBlock.eq_tocListing` — a block that comes out as a block is the table of contents
* `OneToc.arrangeLines_eq_iff`, `arrange_eq_iff_of_stale` — a note is repaired to what it was only
  if nothing was stale
-/

namespace Waymark

variable {lines front block block' back above below opening closing inner inner' : Buffer}
variable {line title rule : Line}
variable {name text : List Char} {options : Options} {levels opened : List Nat} {depth : Nat}

/-! ### What a stale table of contents is replaced by -/

/-- Leading blank lines stay, whichever stage follows, so one more of them cannot go unnoticed. -/
theorem ne_nil_cons_renewFooters (levels opened : List Nat) (rule : Line) (lines : Buffer) :
    lines ≠ [] :: renewFooters levels rule opened true (withoutToc lines) := by
  intro heq
  have hblank : ∀ line ∈ lines.takeWhile isBlank, isBlank line = true :=
    fun line hline => List.all_eq_true.mp List.all_takeWhile line hline
  have hmarker : ∀ line ∈ lines.takeWhile isBlank,
      isStartMarker line = false ∧ isBareEndMarker line = false := fun line hline =>
    not_marker_parts (isMarkerLine_eq_false_of_isBlank (hblank line hline))
  have hkept : renewFooters levels rule opened true (withoutToc lines) =
      lines.takeWhile isBlank ++ renewFooters levels rule opened
        (((lines.takeWhile isBlank).getLast?.map isBlank).getD true)
        (withoutToc (lines.dropWhile isBlank)) := by
    conv => lhs; rw [← List.takeWhile_append_dropWhile (p := isBlank) (l := lines)]
    rw [withoutToc_append (fun line hline => (hmarker line hline).1)
        (fun line hline => (hmarker line hline).2),
      renewFooters_append_of_plain
        (fun line hline => isHeadingLine_eq_false_of_isBlank (hblank line hline))
        (fun line hline => isFooterLine_eq_false_of_isBlank (hblank line hline))]
  -- The right side opens with one blank line more than the left.
  have hlength := congrArg (fun l => (l.takeWhile isBlank).length) heq
  rw [hkept, List.takeWhile_cons_of_pos (by rfl), List.takeWhile_append_of_pos hblank,
    List.length_cons, List.length_append] at hlength
  omega

/-- Where the table of contents is stale, a fresh one comes out below the anchor, an empty line
below it, and then the lines that stay. -/
theorem AnchoredAt.eq_of_stale {rest more : Buffer}
    (h : AnchoredAt lines options.createFrontmatter above title ([] :: rest))
    (hmark : isStartMarker title = false) (hrule : ruleLine options.rule ≠ topAnchor)
    (hsections : hasSections (headings lines) (effectiveDepth options.maxDepth) = true)
    (hstale : isTocCurrent lines (above.length + 4) options.maxDepth = false)
    (hout : arrangeLines lines name options = above ++ [title, [], topAnchor, []] ++ more) :
    more = tocListing lines options.maxDepth ++ [] :: renewFooters options.footerLevels
      (ruleLine options.rule) (baseOpened options.footerLevels) true (withoutToc rest) := by
  have hempty : isHeadingLine ([] : Line) = false ∧ isFooterLine [] = false := by decide
  obtain ⟨text, htext⟩ := h.entitled
  have hlisted : listedLines lines name options = withoutToc above ++ title :: [] :: topAnchor ::
      [] :: (tocListing lines options.maxDepth ++ [] :: withoutToc rest) := by
    rw [listedLines, h.arrangeTop_eq, ensureToc_stale h.parts (isHeadingLine_iff.mpr ⟨_, _, htext⟩)
      hmark rfl h.gap hsections hstale]
    simp [tocLines]
  rw [arrangeLines_eq, hlisted, renewFooters_anchored htext,
    renewFooters_cons_of_plain hempty.1 hempty.2, renewFooters_tocListing,
    renewFooters_cons_of_plain hempty.1 hempty.2, List.append_assoc] at hout
  have hnone : topAnchor ∉ renewFooters options.footerLevels (ruleLine options.rule) [] false
      (withoutToc above) :=
    topAnchor_not_mem_renewFooters hrule fun hmem =>
      h.noneAbove ((withoutToc_sublist _).subset hmem)
  have htitle : title ≠ topAnchor := by
    rintro rfl
    have hhead : isHeadingLine topAnchor = true := isHeadingLine_iff.mpr ⟨_, _, htext⟩
    revert hhead
    decide
  have hplain : ∀ front : Buffer, topAnchor ∉ front → ∀ line ∈ front ++ [title, []],
      (line == topAnchor) = false := by
    intro front hfront line hline
    rw [beq_eq_false_iff_ne]
    rintro rfl
    rcases List.mem_append.mp hline with hline | hline
    · exact hfront hline
    · rcases List.mem_cons.mp hline with hline | hline
      · exact htitle hline.symm
      · revert hline
        decide
  -- There is one anchor only, so what stands behind it on both sides is the same.
  obtain ⟨-, -, hmore⟩ := eq_of_first (· == topAnchor) (by simpa using hout) (by simp) (by simp)
    (hplain _ hnone) (hplain _ h.noneAbove)
  exact (List.cons.inj hmore).2.symm

/-- A block with a fresh table of contents and an empty line in its place is that table of contents,
and then no empty line can have been put below. -/
theorem OnlyBlock.not_stale {listed : Buffer} {depth : Nat} (h : OnlyBlock lines front block back)
    (hrule : isEndMarker rule = false) (hlast : ∀ line ∈ block.getLast?, isEndMarker line = true)
    (hclean : ∀ line ∈ listed, isHeadingLine line = true → isStartMarker line = false) :
    block ++ back ≠
      tocListing listed depth ++ [] :: renewFooters levels rule opened true (withoutToc back) := by
  intro heq
  obtain ⟨-, -, first, rest, rfl, hfirst, hreach⟩ := h.exists_cons
  rcases List.append_eq_append_iff.mp heq with ⟨more, hlisting, hback⟩ | ⟨more, hblock, hmore⟩
  · -- The table of contents does not end below the block, since all of it would be one block.
    have hlong := blockReach_tocListing hclean depth
      ([] :: renewFooters levels rule opened true (withoutToc back))
    rw [hlisting, List.cons_append, List.tail_cons, List.append_assoc, ← hback, hreach,
      List.length_append] at hlong
    obtain rfl : more = [] := List.eq_nil_of_length_eq_zero (by omega)
    exact ne_nil_cons_renewFooters levels opened rule back hback
  · -- Nor does it end above the end of the block, where there is an end marker.
    have hcount := congrArg (fun l => (l.filter isEndMarker).length) hmore
    have hle :
        ((renewFooters levels rule opened true (withoutToc back)).filter isEndMarker).length ≤
        (back.filter isEndMarker).length :=
      ((filter_renewFooters_sublist (by decide) (by decide) hrule).trans
        ((withoutToc_sublist _).filter _)).length_le
    rw [List.filter_cons_of_neg (by decide), List.filter_append, List.length_append] at hcount
    have hnil : more.filter isEndMarker = [] := List.eq_nil_of_length_eq_zero (by omega)
    have hnone : ∀ line ∈ more, isEndMarker line = false := by
      simpa using List.filter_eq_nil_iff.mp hnil
    cases hend : more.getLast? with
    | none =>
      obtain rfl := List.getLast?_eq_none_iff.mp hend
      exact ne_nil_cons_renewFooters levels opened rule back hmore.symm
    | some last =>
      rw [hblock, List.getLast?_append, hend] at hlast
      have := hlast last rfl
      rw [hnone last (List.mem_of_getLast? hend)] at this
      cases this

/-- A note whose only block comes out with the lines around it unchanged has its table of contents
there. -/
theorem OnlyBlock.eq_tocListing (hrule : PlainRule (ruleLine options.rule)) (hname : PlainName name)
    (hold : OnlyBlock lines front block' back)
    (hnew : OnlyBlock (front ++ block ++ back) front block back)
    (hfix : arrangeLines lines name options = front ++ block ++ back)
    (hlast : ∀ line ∈ block.getLast?, isEndMarker line = true)
    (hheads : ∀ line ∈ block', isHeadingLine line = true → line ∈ block)
    (hanchor : topAnchor ∈ block' → topAnchor ∈ block) :
    block' = tocListing lines options.maxDepth ∧
      outline lines = outline (front ++ block ++ back) := by
  obtain ⟨hfront, -, first, rest, rfl, hfirst, -⟩ := hnew.exists_cons
  have hblock : ∀ line ∈ first :: rest, isHeadingLine line = false := by
    refine List.forall_mem_cons.mpr ⟨?_, hnew.isHeadingLine_tail⟩
    by_contra hhead
    have hmem : first ∈ arrangeLines lines name options := by simp [hfix]
    rw [isStartMarker_eq_false_of_mem_arrangeLines hmem (by simpa using hhead)] at hfirst
    cases hfirst
  have hblock' : ∀ line ∈ block', isHeadingLine line = false := by
    intro line hline
    by_contra hhead
    exact hhead (hblock line (hheads line hline (by simpa using hhead)))
  obtain ⟨hclean, -, -⟩ := clean_of_arrangeLines hrule hname hold.parts hfix hblock hblock'
  obtain ⟨above, title, rfl, hmark, -, hsections, hanchored⟩ :=
    exists_anchoredAt_of_arrangeLines hrule
    hname hold.parts hfix hblock hblock' hfront ⟨first, rest, rfl, hfirst⟩ hanchor
  refine ⟨?_, ?_⟩
  · cases hcurrent : isTocCurrent lines (above.length + 4) options.maxDepth with
    | false =>
      have hmore :=
        hanchored.eq_of_stale hmark hrule.noAnchor hsections hcurrent (by simpa using hfix)
      rw [hold.withoutToc_eq] at hmore
      exact absurd hmore
        (hnew.not_stale (isMarkerLine_eq_false_iff.mp hrule.noMarker).2 hlast hclean)
    | true =>
      obtain ⟨front', back', hparts, hlength, hspans, -⟩ := exists_of_isTocCurrent hcurrent
      rw [tocSpans, hold.found, List.cons_append] at hspans
      obtain ⟨-, hspan⟩ := Span.mk.inj (List.cons.inj hspans).1
      have hpos := length_tocListing_pos lines options.maxDepth
      have hpos' := List.length_pos_iff.mpr hold.ne_nil
      -- The table stands where the block stands, and both have the same length.
      have heq : above ++ [title, [], topAnchor, []] ++ (block' ++ back) =
          front' ++ (tocListing lines options.maxDepth ++ back') := by
        rw [← List.append_assoc _ block', ← List.append_assoc front', ← hold.parts]
        exact hparts
      obtain ⟨-, heq⟩ := List.append_inj heq (by simp [hlength])
      refine (List.append_inj heq ?_).1
      simp only [List.length_append, List.length_cons, List.length_nil] at hspan
      omega
  · rw [hold.parts]
    simp only [outline_append, outline_eq_nil hblock, outline_eq_nil hblock']

/-! ### A settled note -/

/-- The lines of a note that is settled come out of a stale copy only if it is no stale copy. -/
theorem OneToc.arrangeLines_eq_iff (hrule : PlainRule (ruleLine options.rule))
    (hname : PlainName name)
    (h : OneToc lines above opening inner closing below)
    (hfix : arrangeLines lines name options = lines)
    (hinner : ∀ line ∈ inner',
      isHeadingLine line = false ∧ isMarkerLine line = false ∧ line ≠ topAnchor) :
    arrangeLines (above ++ (opening ++ inner' ++ closing) ++ below) name options = lines ↔
      inner' = inner := by
  obtain rfl := h.only.parts
  refine ⟨fun hout => ?_, fun heq => by rw [heq, hfix]⟩
  obtain ⟨hblock, -⟩ :=
    h.only.eq_tocListing hrule hname h.only hfix h.getLast? (fun _ hline _ => hline) id
  have hclean : ∀ line ∈ above ++ (opening ++ inner ++ closing) ++ below,
      isHeadingLine line = true → isStartMarker line = false := by
    intro line hline
    rw [← hfix] at hline
    exact isStartMarker_eq_false_of_mem_arrangeLines hline
  obtain ⟨hheads, honly⟩ := h.onlyBlock hblock hclean fun line hline =>
    ⟨(hinner line hline).1, (isMarkerLine_eq_false_iff.mp (hinner line hline).2.1).1⟩
  have hanchor : topAnchor ∈ opening ++ inner' ++ closing →
      topAnchor ∈ opening ++ inner ++ closing := by
    simp only [List.mem_append]
    rintro ((hmem | hmem) | hmem)
    · exact Or.inl (Or.inl hmem)
    · exact absurd rfl (hinner _ hmem).2.2
    · exact Or.inr hmem
  -- Both blocks are the table that the stage writes for the same headings.
  obtain ⟨hblock', houtline⟩ := honly.eq_tocListing hrule hname h.only hout h.getLast?
    (fun line hline hhead => absurd hhead (by simp [hheads line hline])) hanchor
  rw [tocListing_congr houtline, ← hblock] at hblock'
  exact List.append_cancel_left (List.append_cancel_right hblock')

theorem joinLines_injective {lines' : Buffer} (hne : lines ≠ []) (hne' : lines' ≠ [])
    (hlines : ∀ line ∈ lines, '\n' ∉ line) (hlines' : ∀ line ∈ lines', '\n' ∉ line)
    (h : joinLines lines = joinLines lines') : lines = lines' := by
  rw [← List.splitOn_intercalate '\n' hlines hne, ← List.splitOn_intercalate '\n' hlines' hne']
  exact congrArg (List.splitOn '\n') h

theorem needsNavigation_congr {text text' : String}
    (h : outline (splitLines text.toList) = outline (splitLines text'.toList)) :
    needsNavigation text = needsNavigation text' := by
  rw [needsNavigation, needsNavigation, length_headings, length_headings, h]

/-- What a note comes out as is decided by the lines that it comes out with. -/
theorem ofList_joinLines_eq_iff {lines' : Buffer} (hlines : ∀ line ∈ lines, '\n' ∉ line)
    (hlines' : ∀ line ∈ lines', '\n' ∉ line)
    (hneeds : needsNavigation (.ofList (joinLines lines')) = true) :
    String.ofList (joinLines lines) = .ofList (joinLines lines') ↔ lines = lines' := by
  refine ⟨fun h => ?_, fun h => by rw [h]⟩
  have hne := ne_nil_of_needsNavigation hneeds
  rw [← h] at hneeds
  exact joinLines_injective (ne_nil_of_needsNavigation hneeds) hne hlines hlines'
    (String.ofList_injective h)

/-- A settled note is repaired to what it was only where nothing was stale. -/
theorem arrange_eq_iff_of_stale (text stale name : String) (options : Options)
    (hrule : PlainRule options.normalized.rule) (hname : PlainName name.toList)
    (hsettled : arrange text name options = text)
    (htoc : OneToc (splitLines text.toList) above opening inner closing below)
    (hinner : ∀ line ∈ inner',
      isHeadingLine line = false ∧ isMarkerLine line = false ∧ line ≠ topAnchor)
    (hstale : splitLines stale.toList = above ++ (opening ++ inner' ++ closing) ++ below) :
    arrange stale name options = text ↔
      stale = text ∨ needsNavigation text = true ∧ inner' = inner := by
  have houtline : outline (splitLines stale.toList) = outline (splitLines text.toList) := by
    rw [hstale]
    exact htoc.outline_eq fun line hline => (hinner line hline).1
  have hsame := needsNavigation_congr houtline
  cases hneeds : needsNavigation text with
  | false => simp [arrange, hsame, hneeds]
  | true =>
    have hlines := arrangeLines_of_arrange_eq hrule hname hneeds hsettled
    have hruleLine : ruleLine options.normalized.rule = options.normalized.rule :=
      ruleLine_usableRule options
    have htext : text = .ofList (joinLines (splitLines text.toList)) := by
      rw [arrange, if_pos hneeds, hlines] at hsettled
      exact hsettled.symm
    have hfeed : ∀ line ∈ arrangeLines (splitLines stale.toList) name.toList options.normalized,
        '\n' ∉ line := by
      intro line hline
      rcases newline_not_mem_of_mem_arrangeLines (fun _ => not_mem_of_mem_splitLines) hname.2.1
        hline
        with hline | rfl
      · exact hline
      · rw [hruleLine]
        exact hrule.oneLine
    have hiff : arrange stale name options = text ↔
        arrangeLines (splitLines stale.toList) name.toList options.normalized =
          splitLines text.toList := by
      rw [arrange, hsame, if_pos hneeds]
      conv => lhs; rw [htext]
      exact ofList_joinLines_eq_iff hfeed (fun _ => not_mem_of_mem_splitLines) (htext ▸ hneeds)
    rw [← hruleLine] at hrule
    rw [hiff, hstale, htoc.arrangeLines_eq_iff hrule hname hlines hinner]
    refine ⟨fun heq => Or.inr ⟨rfl, heq⟩, ?_⟩
    rintro (heq | ⟨-, heq⟩)
    · rw [heq, htoc.only.parts] at hstale
      have hblock := List.append_cancel_left (List.append_cancel_right hstale)
      exact (List.append_cancel_left (List.append_cancel_right hblock)).symm
    · exact heq

/-- The lines of a note of one section, with the given lines between the markers and below them. -/
def noteOfOneSection (inner gap : Buffer) : Buffer :=
  ["# Note".toList, [], topAnchor, []] ++ (startMarkerLines ++ inner ++ endMarkerLines) ++
    (gap ++ ["## One".toList, "text".toList, [], backToTop, [], "---".toList])

/-- The lines between the markers of the note of one section when it is settled. -/
def innerOfOneSection : Buffer :=
  [tocCaption, tocEntry ⟨0, 2, "One".toList⟩]

theorem arrange_ofList_joinLines {lines' : Buffer} {name : String}
    (hread : splitLines (joinLines lines) = lines) (hneeds : 1 < (headings lines).length)
    (hout : arrangeLines lines name.toList options.normalized = lines') :
    arrange (.ofList (joinLines lines)) name options = .ofList (joinLines lines') := by
  rw [arrange, needsNavigation, String.toList_ofList, hread, if_pos (by simpa using hneeds), hout]

/-- A note whose table of contents has lost its link does not come out as it was. -/
theorem arrange_ne_of_lost_link :
    arrange (.ofList (joinLines (noteOfOneSection [tocCaption] [[]]))) "note" {} ≠
      .ofList (joinLines (noteOfOneSection innerOfOneSection [[]])) := by
  have hread : splitLines (joinLines (noteOfOneSection innerOfOneSection [[]])) =
      noteOfOneSection innerOfOneSection [[]] := by decide +kernel
  have hstale : splitLines (String.ofList (joinLines (noteOfOneSection [tocCaption] [[]]))).toList =
      noteOfOneSection [tocCaption] [[]] := by
    rw [String.toList_ofList]
    decide +kernel
  have htoc : OneToc
      (splitLines (String.ofList (joinLines (noteOfOneSection innerOfOneSection [[]]))).toList)
      ["# Note".toList, [], topAnchor, []] startMarkerLines innerOfOneSection endMarkerLines
      ([[]] ++ ["## One".toList, "text".toList, [], backToTop, [], "---".toList]) := by
    rw [String.toList_ofList, hread]
    exact ⟨⟨rfl, by decide, by decide +kernel⟩, by decide, by decide⟩
  have hinner : ∀ line ∈ ([tocCaption] : Buffer),
      isHeadingLine line = false ∧ isMarkerLine line = false ∧ line ≠ topAnchor := by decide
  have hrule : PlainRule ({} : Options).normalized.rule :=
    ⟨by decide +kernel, by decide +kernel, by decide +kernel, by decide +kernel⟩
  have hname : PlainName "note".toList :=
    ⟨by decide +kernel, by decide +kernel, by decide +kernel, by decide +kernel⟩
  have hsettled :
      arrange (.ofList (joinLines (noteOfOneSection innerOfOneSection [[]]))) "note" {} =
      .ofList (joinLines (noteOfOneSection innerOfOneSection [[]])) :=
    arrange_ofList_joinLines hread (by decide +kernel) (by decide +kernel)
  intro hout
  rcases (arrange_eq_iff_of_stale _ _ _ _ hrule hname hsettled htoc hinner hstale).mp hout
    with hsame | ⟨-, hsame⟩
  · have hlines := String.ofList_injective hsame
    revert hlines
    decide +kernel
  · revert hsame
    decide

/-- Where the table of contents has lost all its lines, one empty line more comes out below it. -/
theorem arrange_noteOfOneSection_nil :
    arrange (.ofList (joinLines (noteOfOneSection innerOfOneSection [[]]))) "note" {} =
        .ofList (joinLines (noteOfOneSection innerOfOneSection [[]])) ∧
      tocBlocks (noteOfOneSection innerOfOneSection [[]]) = [⟨4, 9⟩] ∧
      arrange (.ofList (joinLines (noteOfOneSection [] [[]]))) "note" {} =
        .ofList (joinLines (noteOfOneSection innerOfOneSection [[], []])) ∧
      arrange (.ofList (joinLines (noteOfOneSection [] [[]]))) "note" {} ≠
        .ofList (joinLines (noteOfOneSection innerOfOneSection [[]])) := by
  have hrepaired : arrange (.ofList (joinLines (noteOfOneSection [] [[]]))) "note" {} =
      .ofList (joinLines (noteOfOneSection innerOfOneSection [[], []])) :=
    arrange_ofList_joinLines (by decide +kernel) (by decide +kernel) (by decide +kernel)
  refine ⟨arrange_ofList_joinLines (by decide +kernel) (by decide +kernel) (by decide +kernel),
    by decide +kernel, hrepaired, ?_⟩
  rw [hrepaired]
  intro hsame
  have hlines := String.ofList_injective hsame
  revert hlines
  decide +kernel

end Waymark
