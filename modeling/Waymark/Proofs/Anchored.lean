import Waymark.Proofs.Generated
import Waymark.Proofs.Pieces

/-!
# Buffers around an anchor

Behind the stage of the anchor every buffer has one shape: lines above the title, the title,
an empty line, the anchor, and lines below that start with an empty one. The later stages
work on the lines above the title and on those below the anchor apart. A buffer of this
shape in which no stage finds anything to do is left as it is.

## Main definitions

* `AnchoredAt` — the shape of a buffer behind the stage of the anchor
* `TocSettled` — the stage of the table of contents finds nothing to do

## Main results

* `Entitled.eq_of_found` — a note has one title
* `AnchoredAt.arrangeTop_eq` — where the first stages find nothing to do
* `ensureToc_anchored` — what the stage of the table of contents leaves of such a buffer
* `renewFooters_anchored` — what the stage of the footers leaves of it
* `arrangeLines_anchored` — where no stage finds anything to do
-/

namespace Waymark

/-- The lines have the shape that the stages up to the anchor bring about: lines above the title,
the title, an empty line, the only anchor, and lines that start with an empty one. -/
structure AnchoredAt (lines : Buffer) (create : Bool) (above : Buffer) (title : Line)
    (tail : Buffer) : Prop where
  /-- The parts of the buffer. -/
  parts : lines = above ++ title :: [] :: topAnchor :: tail
  /-- The title is a heading of level one. -/
  entitled : ∃ text, headingOfLine? title = some (1, text)
  /-- The search for the title starts above it, and no other title stands between. -/
  search : ∃ start, titleStart lines create = (lines, start) ∧ start ≤ above.length ∧
    ∀ line ∈ above.drop start, titleOfLine? line = none
  /-- No anchor stands above the title. -/
  noneAbove : topAnchor ∉ above
  /-- No second anchor stands below. -/
  noneBelow : topAnchor ∉ tail
  /-- An empty line stands below the anchor, if any does. -/
  gap : ∀ line ∈ tail.head?, line = []

variable {lines above below tail front back : Buffer} {line title : Line} {start depth place : Nat}
variable {name text : List Char} {options : Options} {pretty : Bool}

/-! ### One title -/

/-- A note with a title is cut there and nowhere else. -/
theorem Entitled.eq_of_found {above' below' : Buffer} {title' : Line}
    (hcut : Entitled (above ++ title :: below) start name pretty above' title' below')
    (hstart : start ≤ above.length) (hfirst : ∀ line ∈ above.drop start, titleOfLine? line = none)
    (htitle : (titleOfLine? title).isSome) : above' = above ∧ title' = title ∧ below' = below := by
  have hdrop : (above ++ title :: below).drop start = above.drop start ++ title :: below :=
    List.drop_append_of_le_length hstart
  generalize hlines : above ++ title :: below = lines at hcut hdrop
  cases hcut with
  | found hlines' hstart' hfirst' htitle' =>
    have hdrop' : lines.drop start = above'.drop start ++ title' :: below' := by
      rw [hlines', List.drop_append_of_le_length hstart']
    obtain ⟨habove, rfl, rfl⟩ := eq_of_first (fun line => (titleOfLine? line).isSome)
      (hdrop'.symm.trans hdrop) htitle' htitle
      (fun l hl => by simp [hfirst' l hl]) (fun l hl => by simp [hfirst l hl])
    refine ⟨?_, rfl, rfl⟩
    rw [hlines'] at hlines
    exact (List.append_cancel_right hlines).symm
  | made hnone =>
    rw [hdrop] at hnone
    rw [hnone title (by simp)] at htitle
    cases htitle

/-! ### The first stages -/

/-- The first stages find the title and the anchor of a buffer at their places and take all other
anchors out. -/
theorem arrangeTop_of_parts (hlines : lines = above ++ title :: [] :: topAnchor :: tail)
    (htitle : headingOfLine? title = some (1, text))
    (hsearch : titleStart lines options.createFrontmatter = (lines, start))
    (hstart : start ≤ above.length) (hfirst : ∀ line ∈ above.drop start, titleOfLine? line = none)
    (hgap : ∀ line ∈ tail.head?, line = []) :
    arrangeTop lines name options =
      (withoutAnchors above ++ title :: [] :: topAnchor :: withoutAnchors tail,
        (withoutAnchors above).length + 2) := by
  obtain ⟨above', title', below', hcut, heq⟩ := Waymark.arrangeTop_eq lines name options
  rw [hsearch] at hcut
  conv at hcut => rw [hlines]
  have htitled : (titleOfLine? title).isSome := by
    rw [titleOfLine?_eq_some_iff.mpr htitle]
    rfl
  -- The buffer is cut at its title, and that cut is unique.
  obtain ⟨rfl, rfl, rfl⟩ := hcut.eq_of_found hstart hfirst htitled
  have hbelow : withoutAnchors (belowGap ([] :: topAnchor :: tail)) = withoutAnchors tail :=
    List.filter_cons_of_neg (by simp)
  have hempty : ensureEmptyAt (withoutAnchors tail) 0 = withoutAnchors tail := by
    cases tail with
    | nil => rfl
    | cons first tail =>
      rw [hgap first rfl]
      rfl
  rw [heq, hbelow, hempty]

/-- The first stages leave a buffer as it is that is already of the shape they bring about. -/
theorem AnchoredAt.arrangeTop_eq (h : AnchoredAt lines options.createFrontmatter above title tail) :
    arrangeTop lines name options = (lines, above.length + 2) := by
  obtain ⟨hlines, ⟨text, htext⟩, ⟨start, hsearch, hstart, hfirst⟩, habove, htail, hgap⟩ := h
  rw [arrangeTop_of_parts hlines htext hsearch hstart hfirst hgap, withoutAnchors_eq_self habove,
    withoutAnchors_eq_self htail, ← hlines]

/-! ### The table of contents -/

/-- The stage of the table of contents finds nothing to do: there is nothing to list and no marker,
or there is a table of contents at its place and no marker elsewhere. -/
def TocSettled (lines : Buffer) (place depth : Nat) : Prop :=
  (hasSections (headings lines) (effectiveDepth depth) = false ∧
      ∀ line ∈ lines, isMarkerLine line = false) ∨
    (hasSections (headings lines) (effectiveDepth depth) = true ∧ ∃ front back,
      lines = front ++ tocListing lines depth ++ back ∧ front.length = place ∧
        (∀ line ∈ front, isMarkerLine line = false) ∧ ∀ line ∈ back, isMarkerLine line = false)

theorem withoutToc_of_no_marker (h : ∀ line ∈ lines, isMarkerLine line = false) :
    withoutToc lines = lines := by
  have hparts := fun line hline => isMarkerLine_eq_false_iff.mp (h line hline)
  refine withoutToc_eq_self (fun line hline => (hparts line hline).1) fun line hline => ?_
  by_contra hbare
  have hend := isEndMarker_of_isBareEndMarker (by simpa using hbare)
  rw [(hparts line hline).2] at hend
  cases hend

/-- Where nothing is to be done, the stage does nothing. -/
theorem TocSettled.ensureToc_eq {anchor : Nat} (h : TocSettled lines (anchor + 2) depth) :
    ensureToc lines anchor depth = lines := by
  rcases h with ⟨hsections, hmarker⟩ | ⟨hsections, front, back, hlines, hplace, hfront, hback⟩
  · rw [ensureToc_of_not_hasSections hsections, withoutToc_of_no_marker hmarker]
  · refine ensureToc_of_isTocCurrent hsections
      (isTocCurrent_of_quiet hlines hplace (fun line hline hheading => ?_) hfront hback)
    rw [hlines] at hline
    rcases List.mem_append.mp hline with hline | hline
    · rcases List.mem_append.mp hline with hline | hline
      · exact hfront line hline
      · rw [isHeadingLine_eq_false_of_mem_tocListing hline] at hheading
        cases hheading
    · exact hback line hline

/-- A current table of contents stands right below the anchor and its empty line. -/
theorem isTocCurrent_anchored (hlines : lines = above ++ title :: [] :: topAnchor :: tail)
    (htail : ∀ line ∈ tail.head?, line = [])
    (hcurrent : isTocCurrent lines (above.length + 4) depth = true) :
    ∃ after, tail = [] :: (tocListing lines depth ++ after) ∧ withoutToc above = above ∧
      withoutToc after = after ∧
      withoutToc lines = above ++ title :: [] :: topAnchor :: [] :: after := by
  obtain ⟨front, back, hparts, hlength, -, hleft⟩ := exists_of_isTocCurrent hcurrent
  have hpos := length_tocListing_pos lines depth
  cases tail with
  | nil =>
    -- A current table stands below the anchor, so something does.
    have hshort := congrArg List.length hlines
    have hlong := congrArg List.length hparts
    simp only [List.length_append, List.length_cons, List.length_nil] at hshort hlong
    omega
  | cons first tail =>
    obtain rfl : first = [] := htail first rfl
    have hcut : (above ++ [title, [], topAnchor, []]) ++ tail =
        front ++ (tocListing lines depth ++ back) := by
      rw [← List.append_assoc front, ← hparts, hlines]
      simp
    obtain ⟨hfront, rfl⟩ := List.append_inj hcut (by simp [hlength])
    -- What the stage would leave is clean, and these are lines that it would leave.
    have hquiet :
        ∀ line ∈ above ++ back, isStartMarker line = false ∧ isBareEndMarker line = false := by
      intro line hline
      have hmem : line ∈ withoutToc lines := by
        rw [hleft, ← hfront]
        simp only [List.mem_append] at hline ⊢
        tauto
      exact ⟨isStartMarker_eq_false_of_mem_withoutToc hmem,
        isBareEndMarker_eq_false_of_mem_withoutToc hmem⟩
    refine ⟨back, rfl, ?_, ?_, by simp [hleft, ← hfront]⟩
    · exact withoutToc_eq_self (fun l hl => (hquiet l (List.mem_append_left _ hl)).1)
        fun l hl => (hquiet l (List.mem_append_left _ hl)).2
    · exact withoutToc_eq_self (fun l hl => (hquiet l (List.mem_append_right _ hl)).1)
        fun l hl => (hquiet l (List.mem_append_right _ hl)).2

theorem withoutToc_withoutToc (lines : Buffer) : withoutToc (withoutToc lines) = withoutToc lines :=
  withoutToc_eq_self (fun _ => isStartMarker_eq_false_of_mem_withoutToc)
    fun _ => isBareEndMarker_eq_false_of_mem_withoutToc

/-- What the stage leaves below the anchor: the lines that stay, or an empty line, the table of
contents and the lines that stay behind it. -/
theorem ensureToc_anchored (hlines : lines = above ++ title :: [] :: topAnchor :: tail)
    (htitle : isHeadingLine title = true) (hmark : isStartMarker title = false)
    (htail : ∀ line ∈ tail.head?, line = []) (depth : Nat) :
    ∃ tail', ensureToc lines (above.length + 2) depth =
        withoutToc above ++ title :: [] :: topAnchor :: tail' ∧
      ((hasSections (headings lines) (effectiveDepth depth) = false ∧ tail' = withoutToc tail) ∨
        (hasSections (headings lines) (effectiveDepth depth) = true ∧ ∃ after,
          tail' = [] :: (tocListing lines depth ++ after) ∧ withoutToc after = after ∧
            (withoutToc tail).tail <:+ after ∧ ∀ line ∈ after, line ∈ tail ∨ line = [])) := by
  -- There is nothing to list, or the listing is current, or it is written anew.
  cases hsections : hasSections (headings lines) (effectiveDepth depth) with
  | false =>
    refine ⟨withoutToc tail, ?_, Or.inl ⟨rfl, rfl⟩⟩
    rw [ensureToc_of_not_hasSections hsections, hlines, withoutToc_anchored htitle hmark]
  | true =>
    cases hcurrent : isTocCurrent lines (above.length + 2 + 2) depth with
    | true =>
      obtain ⟨after, rfl, habove, hafter, hleft⟩ := isTocCurrent_anchored hlines htail hcurrent
      refine ⟨_, ?_, Or.inr ⟨rfl, after, rfl, hafter, ?_, fun line hline => ?_⟩⟩
      · rw [ensureToc_of_isTocCurrent hsections hcurrent, habove, ← hlines]
      · rw [hlines, withoutToc_anchored htitle hmark, habove] at hleft
        have hkept : withoutToc ([] :: (tocListing lines depth ++ after)) = [] :: after := by
          simpa using List.append_cancel_left hleft
        rw [hkept]
        exact List.suffix_rfl
      · exact Or.inl (by simp [hline])
    | false =>
      refine ⟨_, ensureToc_stale hlines htitle hmark rfl htail hsections hcurrent,
        Or.inr ⟨rfl, [] :: withoutToc tail.tail, by simp [tocLines], ?_, ?_, ?_⟩⟩
      · rw [withoutToc_cons (by decide) (by decide), withoutToc_withoutToc]
      · cases tail with
        | nil => simp
        | cons first tail =>
          obtain rfl : first = [] := htail first rfl
          rw [withoutToc_cons (by decide) (by decide)]
          exact List.suffix_cons _ _
      · intro line hline
        rcases List.mem_cons.mp hline with rfl | hline
        · exact Or.inr rfl
        · exact Or.inl (List.mem_of_mem_tail ((withoutToc_sublist _).subset hline))

/-! ### The footers -/

/-- What the stage of the footers leaves: the title, the empty line and the anchor stay. -/
theorem renewFooters_anchored (htitle : headingOfLine? title = some (1, text)) (levels : List Nat)
    (rule : Line) (endsBlank : Bool) (above tail : Buffer) :
    renewFooters levels rule [] endsBlank (above ++ title :: [] :: topAnchor :: tail) =
      renewFooters levels rule [] endsBlank above ++ title :: [] :: topAnchor ::
        renewFooters levels rule (baseOpened levels) false tail := by
  have hempty : isHeadingLine ([] : Line) = false ∧ isFooterLine [] = false := by decide
  have hanchor : isHeadingLine topAnchor = false ∧ isFooterLine topAnchor = false ∧
      isBlank topAnchor = false := by decide
  rw [renewFooters_append_title htitle (by simp), renewFooters_cons_of_plain hempty.1 hempty.2,
    renewFooters_cons_of_plain hanchor.1 hanchor.2.1, hanchor.2.2]

/-- The lines below the anchor go on starting with an empty line. -/
theorem head?_renewFooters (levels : List Nat) (rule : Line) (opened : List Nat)
    (htail : ∀ line ∈ tail.head?, line = []) :
    ∀ line ∈ (renewFooters levels rule opened false tail).head?, line = [] := by
  cases tail with
  | nil =>
    rw [renewFooters, keptLines, placeFooters]
    cases opened with
    | nil => simp [footerStack]
    | cons outer opened => simp [footerStack, footerLines]
  | cons first tail =>
    obtain rfl : first = [] := htail first rfl
    have hempty : isHeadingLine ([] : Line) = false ∧ isFooterLine [] = false := by decide
    rw [renewFooters_cons_of_plain hempty.1 hempty.2]
    simp

/-- The footers stay clear of a table of contents. -/
theorem renewFooters_tocListing (levels : List Nat) (rule : Line) (opened : List Nat)
    (lines : Buffer) (depth : Nat) (endsBlank : Bool) (after : Buffer) :
    renewFooters levels rule opened endsBlank (tocListing lines depth ++ after) =
      tocListing lines depth ++ renewFooters levels rule opened false after := by
  rw [renewFooters_append_of_plain (fun _ => isHeadingLine_eq_false_of_mem_tocListing)
    fun _ => isFooterLine_eq_false_of_mem_tocListing]
  have hne : tocListing lines depth ≠ [] := List.ne_nil_of_length_pos (length_tocListing_pos _ _)
  have hlast : (tocListing lines depth).getLast? = some ((tocListing lines depth).getLast hne) :=
    List.getLast?_eq_some_getLast hne
  rw [hlast, Option.map_some, Option.getD_some,
    isBlank_eq_false_of_mem_tocListing (List.getLast_mem hne)]

/-! ### Fixed points -/

/-- A buffer in which no stage finds anything to do is left as it is. -/
theorem arrangeLines_anchored (htop : arrangeTop lines name options = (lines, above.length + 2))
    (htoc : TocSettled lines (above.length + 4) options.maxDepth)
    (hfooters : renewFooters options.footerLevels (ruleLine options.rule) [] false lines = lines) :
    arrangeLines lines name options = lines := by
  rw [arrangeLines_eq, listedLines, htop, htoc.ensureToc_eq, hfooters]

end Waymark
