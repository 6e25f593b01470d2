import Waymark.Proofs.Idempotence

/-!
# Where the anchor stands

An arranged buffer has exactly one anchor, however many the note had. It stands two lines
below the title, with an empty line on either side. The stage of the anchor sees to this;
the later stages cut the buffer at the title and work on the two parts apart, so that they
neither move the two lines below the title nor bring a second anchor in.

Two things could break the cut: a title that the stage of the table of contents takes for a
start marker, and a rule line that reads like the anchor.

## Main definitions

* `madeTitle?` — the title line that is made where none is found
* `IsAnchored` — a buffer with its one anchor in place

## Main results

* `Entitled.isStartMarker_title` — a title is a start marker only if it was one in the note
* `isAnchored_of_parts` — reading the place of the anchor off the parts of a buffer
* `isAnchored_of_arrangeTop` — the later stages leave the anchor alone
* `isAnchored_arrangeLines` — the one anchor of an arranged buffer
-/

namespace Waymark

/-- The title line that the stage of the title makes, if it finds none. -/
def madeTitle? (lines : Buffer) (name : List Char) (options : Options) : Option Line :=
  let (lines, start) := titleStart lines options.createFrontmatter
  match findTitle lines start with
  | some _ => none
  | none => some (titleLine (titleOfName name options.prettifyTitle))

/-- Line `index` is the one anchor of the buffer. It stands two lines below the title, and an
empty line stands above it and, unless the buffer ends with it, below it. -/
structure IsAnchored (lines : Buffer) (title : Line) (index : Nat) : Prop where
  /-- No other line is an anchor. -/
  only : ∀ i, lines[i]? = some topAnchor ↔ i = index
  /-- There is room for the title and an empty line. -/
  room : 2 ≤ index
  /-- The title stands two lines above. -/
  title : lines[index - 2]? = some title
  /-- The line above is empty. -/
  gapAbove : lines[index - 1]? = some []
  /-- The line below is empty, or there is none. -/
  gapBelow : ∀ line ∈ lines[index + 1]?, line = []

variable {lines above below tail : Buffer} {line title : Line} {start : Nat}
variable {name text : List Char} {options : Options}

/-! ### The title -/

/-- A title is a start marker only if the heading that was found is one, or the line that was
made. -/
theorem Entitled.isStartMarker_title (hname : '\n' ∉ name)
    (hcut : Entitled (titleStart lines options.createFrontmatter).1
      (titleStart lines options.createFrontmatter).2 name options.prettifyTitle above title below)
    (hlines : ∀ line ∈ lines, isHeadingLine line = true → isStartMarker line = false)
    (hmade : ∀ line ∈ madeTitle? lines name options, isStartMarker line = false) :
    isStartMarker title = false := by
  obtain ⟨text, htext⟩ := hcut.headingOfLine?_title hname
  have hheading : isHeadingLine title = true := isHeadingLine_iff.mpr ⟨_, _, htext⟩
  cases hcut with
  | found hparts =>
    -- The lines of a block that was made are no headings, so the title stood in the note.
    have hmem : title ∈ (titleStart lines options.createFrontmatter).1 := by simp [hparts]
    rcases mem_titleStart hmem with hmem | rfl | rfl
    · exact hlines title hmem hheading
    · revert hheading
      decide
    · revert hheading
      decide
  | made hnone =>
    refine hmade _ ?_
    have hfind : findTitle (titleStart lines options.createFrontmatter).1
        (titleStart lines options.createFrontmatter).2 = none :=
      findTitleFrom_eq_none_iff.mpr hnone
    simp [madeTitle?, hfind]

/-! ### The anchor -/

/-- The place of the anchor, read off the parts of a buffer. -/
theorem isAnchored_of_parts (habove : topAnchor ∉ above) (htail : topAnchor ∉ tail)
    (htitle : title ≠ topAnchor) (hgap : ∀ line ∈ tail.head?, line = []) :
    IsAnchored (above ++ title :: [] :: topAnchor :: tail) title (above.length + 2) where
  only i := by
    have hempty : topAnchor ≠ ([] : Line) := by decide
    have hfront : topAnchor ∉ above ++ [title, []] := by simp [habove, htitle.symm, hempty]
    have hplace := getElem?_append_cons_eq_iff (i := i) hfront htail
    simpa using hplace
  room := by omega
  title := by simp
  gapAbove := by simp
  gapBelow line hline := by
    rw [List.getElem?_append_right (by omega), Nat.add_assoc, Nat.add_sub_cancel_left] at hline
    exact hgap line (by rwa [List.head?_eq_getElem?])

/-- The stages after that of the anchor leave the anchor where it is, and bring no other one in. -/
theorem isAnchored_of_arrangeTop (hrule : ruleLine options.rule ≠ topAnchor)
    (htop : arrangeTop lines name options =
      (withoutAnchors above ++ title :: [] :: topAnchor :: tail, (withoutAnchors above).length + 2))
    (htitle : headingOfLine? title = some (1, text)) (hmark : isStartMarker title = false)
    (hgap : ∀ line ∈ tail.head?, line = []) (htail : topAnchor ∉ tail) :
    IsAnchored (arrangeLines lines name options) title
      ((settledAbove options.footerLevels (ruleLine options.rule) above).length + 2) := by
  obtain ⟨tail', hout, hcases⟩ := exists_arrangeLines_of_arrangeTop htop htitle hmark hgap
  -- Whether or not a table of contents was put in, what follows the anchor starts with an empty
  -- line and holds no second anchor.
  have htail' : topAnchor ∉ tail' ∧ ∀ line ∈ tail'.head?, line = [] := by
    rcases hcases with ⟨-, rfl⟩ | ⟨-, after, rfl, -, -, hsource⟩
    · exact ⟨fun hmem => htail ((withoutToc_sublist _).subset hmem), head?_withoutToc hgap⟩
    · exact ⟨topAnchor_not_mem_listing htail hsource, by simp⟩
  have hne : title ≠ topAnchor := by
    rintro rfl
    cases htitle
  rw [hout]
  exact isAnchored_of_parts (topAnchor_not_mem_settledAbove hrule _ _)
    (topAnchor_not_mem_renewFooters hrule htail'.1) hne (head?_renewFooters _ _ _ htail'.2)

/-- The one anchor of an arranged buffer stands two lines below the title, the very line that the
stage of the title found or made: what is above it comes from what was above it there. -/
theorem isAnchored_arrangeLines (lines : Buffer) (name : List Char) (options : Options)
    (hname : '\n' ∉ name) (hrule : ruleLine options.rule ≠ topAnchor)
    (hlines : ∀ line ∈ lines, isHeadingLine line = true → isStartMarker line = false)
    (hmade : ∀ line ∈ madeTitle? lines name options, isStartMarker line = false) :
    let titled := (titledLines lines name options).1
    let found := (titledLines lines name options).2.1
    ∃ title text index, titled[found]? = some title ∧ headingOfLine? title = some (1, text) ∧
      IsAnchored (arrangeLines lines name options) title index ∧
        (arrangeLines lines name options).take (index - 2) =
          settledAbove options.footerLevels (ruleLine options.rule) (titled.take found) := by
  obtain ⟨above, title, below, _, hcut, htitled, htop⟩ :=
    exists_entitled_arrangeTop lines name options
  obtain ⟨text, htext⟩ := hcut.headingOfLine?_title hname
  have hmark := hcut.isStartMarker_title hname hlines hmade
  have hgap := head?_ensureEmptyAt (withoutAnchors (belowGap below))
  refine ⟨title, text, _, ?_, htext, isAnchored_of_arrangeTop hrule htop htext hmark hgap
    (topAnchor_not_mem_ensureEmptyAt _), ?_⟩
  · rw [htitled]
    simp
  · obtain ⟨tail', hout, -⟩ := exists_arrangeLines_of_arrangeTop htop htext hmark hgap
    rw [htitled, hout, Nat.add_sub_cancel, List.take_left, List.take_left]

/-- A note with two anchors, a block above its title, an end marker that belongs to no block, a
start marker that is never closed, and a stray footer. -/
def noteOfStrayLines : Buffer :=
  ["<!-- MDNAV:TOC START -->".toList, topAnchor, "%% MDNAV:TOC END %%".toList, "## A".toList,
    backToTop, "# T".toList, topAnchor, "<!-- MDNAV:TOC END -->".toList, "## B".toList,
    "%% MDNAV:TOC START %%".toList]

theorem isAnchored_noteOfStrayLines : ∃ index,
    IsAnchored (arrangeLines noteOfStrayLines "note".toList {}) "# T".toList index := by
  obtain ⟨title, _, index, hfound, -, hanchored, -⟩ := isAnchored_arrangeLines noteOfStrayLines
    "note".toList {} (by decide) (by decide) (by decide +kernel) (by decide +kernel)
  have htitle : (titledLines noteOfStrayLines "note".toList {}).1[
      (titledLines noteOfStrayLines "note".toList {}).2.1]? = some "# T".toList := by
    decide +kernel
  obtain rfl : "# T".toList = title := Option.some.inj (htitle.symm.trans hfound)
  exact ⟨index, hanchored⟩

end Waymark
