import Waymark.Log
import Waymark.Options

/-!
# Notes

The navigation of a whole note: frontmatter, title heading, anchor, table of contents
and footers, in this order. Each stage reads the buffer that the one before it left. A
note with at most one heading needs no navigation and is left as it is, line ends
included; all others are written with bare line feeds.

The notices that belong to arranging a note are computed from the same buffers as the
stages themselves.

## Main definitions

* `arrangeLines` — every stage on one line buffer
* `arrange` — the text of a note with its navigation in place
* `levelNotices`, `Options.notices` — ignored levels and an unusable rule line
* `arrangeLinesNotices` — the notices of every stage
* `arrangeNotices` — the notices of arranging a text
-/

namespace Waymark

/-! ### The stages -/

/-- The buffer up to the stage of the anchor, and the index of the anchor. -/
def arrangeTop (lines : Buffer) (name : List Char) (options : Options) : Buffer × Nat :=
  let (lines, fence) := ensureFrontmatter lines options.createFrontmatter
  let (lines, title, _) := ensureTitle lines fence name options.prettifyTitle
  ensureTopAnchor (ensureEmptyAfter lines title) (title + 2)

/-- The buffer with its navigation in place. The options are used as they are given. -/
def arrangeLines (lines : Buffer) (name : List Char) (options : Options) : Buffer :=
  let (lines, anchor) := arrangeTop lines name options
  ensureFooters (ensureToc lines anchor options.maxDepth) options.footerLevels options.rule

/-- The text has more than one heading, so it is a note to be arranged. -/
def needsNavigation (text : String) : Bool :=
  1 < (headings (splitLines text.toList)).length

/-- The text of a note with its navigation in place; `name` is the note's file name without
extension. -/
def arrange (text name : String) (options : Options) : String :=
  if needsNavigation text then
    .ofList (joinLines (arrangeLines (splitLines text.toList) name.toList options.normalized))
  else text

/-! ### What is reported about a note -/

/-- A number as the value of a notice. -/
def numberValue (n : Nat) : String := toString n

/-- One notice for each integer that is no heading level. -/
def levelNotices (numbers : List Int) : List Notice :=
  (numbers.filter fun n => !isLevel n).map fun n =>
    ⟨.warn, "ignoring footer level outside 1..=6", [("level", toString n)]⟩

/-- What is reported when options are brought into their ranges. -/
def Options.notices (options : Options) : List Notice :=
  (if options.usableRule == trimEnd options.rule then []
    else [⟨.warn, "unusable rule line, using default", [("hr", .ofList options.rule)]⟩]) ++
    levelNotices (options.footerLevels.map Int.ofNat)

/-- What is reported about frontmatter. -/
def frontmatterNotices (lines : Buffer) (create : Bool) : List Notice :=
  if (findFrontmatter lines).isNone && create then
    [⟨.debug, "creating empty frontmatter block", []⟩]
  else []

/-- What is reported about the title heading. -/
def titleNotices (lines : Buffer) (fence : Option Nat) (name : List Char) (pretty : Bool) :
    List Notice :=
  let (_, index, title) := ensureTitle lines fence name pretty
  (if (findTitle lines (fence.elim 0 (· + 1))).isNone then
    [⟨.debug, "synthesizing missing h1", [("title", .ofList title)]⟩] else []) ++
    [⟨.debug, "h1 resolved", [("h1_index", numberValue index), ("title", .ofList title)]⟩]

/-- What is reported about the anchor. -/
def anchorNotices (lines : Buffer) (index : Nat) : List Notice :=
  let found := lines.count topAnchor
  if 1 < found || (found == 1 && lines[index]? != some topAnchor) then
    [⟨.debug, "removed stray top anchors", [("found", numberValue found)]⟩]
  else []

/-- What is reported about the table of contents. -/
def tocNotices (lines : Buffer) (anchor maxDepth : Nat) : List Notice :=
  let blocks := tocBlocks lines
  let orphans := orphanEndMarkers lines blocks
  if !hasSections (headings lines) (effectiveDepth maxDepth) then
    if blocks.isEmpty && orphans.isEmpty then []
    else [⟨.debug, "removing toc from document without sections",
      [("blocks", numberValue blocks.length)]⟩]
  else if isTocCurrent lines (anchor + 2) maxDepth then []
  else [⟨.debug, "rewriting toc block",
    [("blocks", numberValue blocks.length), ("orphans", numberValue orphans.length)]⟩]

/-- What is reported about the footers. -/
def footerNotices (lines : Buffer) (levels : List Nat) (rule : List Char) : List Notice :=
  let stripped := (footerSpans lines levels (ruleLine rule)).length
  if stripped = 0 then []
  else [⟨.debug, "removed existing footers", [("stripped", numberValue stripped)]⟩]

/-- What is reported by every stage on one line buffer. -/
def arrangeLinesNotices (lines : Buffer) (name : List Char) (options : Options) : List Notice :=
  let (fenced, fence) := ensureFrontmatter lines options.createFrontmatter
  let (titled, title, _) := ensureTitle fenced fence name options.prettifyTitle
  let spaced := ensureEmptyAfter titled title
  let (anchored, anchor) := ensureTopAnchor spaced (title + 2)
  let listed := ensureToc anchored anchor options.maxDepth
  frontmatterNotices lines options.createFrontmatter ++
    titleNotices fenced fence name options.prettifyTitle ++
    anchorNotices spaced (title + 2) ++
    tocNotices anchored anchor options.maxDepth ++
    footerNotices listed options.footerLevels options.rule

/-- What is reported when the text of a note is arranged. -/
def arrangeNotices (text name : String) (options : Options) : List Notice :=
  let lines := splitLines text.toList
  if needsNavigation text then
    options.notices ++ arrangeLinesNotices lines name.toList options.normalized
  else
    [⟨.debug, "nothing to normalize",
      [("heading_count", numberValue (headings lines).length)]⟩]

end Waymark
