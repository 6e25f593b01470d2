import Waymark.Heading

/-!
# Tables of contents

A generated table of contents stands between start and end markers, each written once
as an HTML comment and once as a `%%` comment. A line counts as a marker line when it
mentions a marker anywhere. Lines that hold an end marker and nothing else are told
apart, since only those may be taken out when they belong to no table of contents.

However damaged the markers are, a block opens at a start marker and runs through the last
end marker before the next heading, or before the next start marker that follows some end
marker. A start marker without an end marker in that range is a block of one line, so that
it is found and removed.

A table of contents lists the headings from level two down to a depth, one link per
line, two spaces deeper per level. A note with sections to list has one table of contents,
two lines below its anchor. It is left alone when it is exactly what would be written there.
Otherwise every block and every orphan end marker is taken out and a fresh table of contents
is put in. A note with nothing to list has none.

## Main definitions

* `Marker` — a word between two brackets, with optional blanks around it
* `isStartMarker`, `isEndMarker` — the line mentions a start or an end marker
* `isBareEndMarker` — the line is an end marker and blanks
* `blockReach` — how many lines after a start marker belong to its block
* `tocBlocks` — the blocks of a buffer, from first to last
* `orphanEndMarkers` — bare end markers outside every block
* `effectiveDepth` — the depth that a configured depth stands for
* `tocEntry` — the line that links to one heading
* `tocListing`, `tocLines` — the lines of a table of contents, without and with the empty line
  below it
* `tocSpans` — all lines that the stage may take out
* `isTocCurrent` — the one block there is needs no change
* `ensureToc` — the buffer with its table of contents in place
-/

namespace Waymark

/-! ### Markers -/

/-- A word between brackets; blanks may stand on either side of the word. -/
structure Marker where
  /-- The opening bracket. -/
  opening : List Char
  /-- The word. -/
  word : List Char
  /-- The closing bracket. -/
  closing : List Char
  deriving DecidableEq, Repr

namespace Marker

/-- What follows the marker at the front of the text. -/
def rest? (marker : Marker) (text : List Char) : Option (List Char) := do
  let text ← after? marker.opening text
  let text ← after? marker.word (trimStart text)
  after? marker.closing (trimStart text)

/-- The marker occurs in the text. -/
def occursIn (marker : Marker) (text : List Char) : Bool :=
  anySuffix (fun rest => (marker.rest? rest).isSome) text

/-- The text is the marker and blanks around it. -/
def isAlone (marker : Marker) (text : List Char) : Bool :=
  ((marker.rest? (trimStart text)).map isBlank).getD false

/-- A word as an HTML comment. -/
def html (word : List Char) : Marker := ⟨"<!--".toList, word, "-->".toList⟩

/-- A word between double percent signs. -/
def comment (word : List Char) : Marker := ⟨"%%".toList, word, "%%".toList⟩

/-- A word between single percent signs, which is how a double percent comment is found within
a line. -/
def percent (word : List Char) : Marker := ⟨"%".toList, word, "%".toList⟩

end Marker

/-- The word of a start marker. -/
def startWord : List Char := "MDNAV:TOC START".toList

/-- The word of an end marker. -/
def endWord : List Char := "MDNAV:TOC END".toList

/-- The line mentions a start marker. -/
def isStartMarker (line : Line) : Bool :=
  (Marker.html startWord).occursIn line || (Marker.percent startWord).occursIn line

/-- The line mentions an end marker. -/
def isEndMarker (line : Line) : Bool :=
  (Marker.html endWord).occursIn line || (Marker.percent endWord).occursIn line

/-- The line holds one end marker and nothing else. -/
def isBareEndMarker (line : Line) : Bool :=
  (Marker.html endWord).isAlone line || (Marker.comment endWord).isAlone line

/-! ### Blocks -/

/-- How many of the lines after a start marker belong to its block: those through the last end
marker before the block's limit. The limit is the next heading, or, once an end marker has been
seen (`closed`), the next start marker. -/
def blockReach (closed : Bool) : List Line → Nat
  | [] => 0
  | line :: rest =>
    if isHeadingLine line then 0
    else if isEndMarker line then blockReach true rest + 1
    else if isStartMarker line && closed then 0
    else
      -- The line counts only if an end marker follows it.
      match blockReach closed rest with
      | 0 => 0
      | reach + 1 => reach + 2

/-- The blocks among the lines, the first line having index `index`. The first `inside` lines
belong to a block that was found before. -/
def tocBlocksFrom (inside index : Nat) : List Line → List Span
  | [] => []
  | line :: rest =>
    match inside with
    | inside + 1 => tocBlocksFrom inside (index + 1) rest
    | 0 =>
      if isStartMarker line then
        let reach := blockReach false rest
        ⟨index, index + reach⟩ :: tocBlocksFrom reach (index + 1) rest
      else tocBlocksFrom 0 (index + 1) rest

/-- The blocks of a buffer. -/
def tocBlocks (lines : Buffer) : List Span :=
  tocBlocksFrom 0 0 lines

/-- The bare end markers of a buffer that lie in none of the blocks. -/
def orphanEndMarkers (lines : Buffer) (blocks : List Span) : List Span :=
  (lines.zipIdx.filter fun (line, index) =>
    isBareEndMarker line && !blocks.any (·.contains index)).map fun (_, index) => .single index

/-! ### The text of a table of contents -/

/-- The deepest heading level there is. -/
def deepestLevel : Nat := 6

/-- The depth that is used where none is configured. -/
def defaultDepth : Nat := 4

/-- The depth that a configured depth stands for: zero is the default depth, and no depth is
below the deepest heading level. -/
def effectiveDepth (maxDepth : Nat) : Nat :=
  if maxDepth = 0 then defaultDepth else min maxDepth deepestLevel

/-- The two lines that open a table of contents. -/
def startMarkerLines : List Line :=
  ["<!-- MDNAV:TOC START -->".toList, "%% MDNAV:TOC START %%".toList]

/-- The two lines that close a table of contents. -/
def endMarkerLines : List Line :=
  ["<!-- MDNAV:TOC END -->".toList, "%% MDNAV:TOC END %%".toList]

/-- The caption above the links. -/
def tocCaption : Line := "> [!note]- 🔗 Quick Jump".toList

/-- The line that stands for an empty list of links. -/
def noEntriesLine : Line := "> - _No headings found_".toList

/-- The line that links to a heading of the given level and text. -/
def tocEntry (head : Heading) : Line :=
  "> ".toList ++ List.replicate (2 * (head.level - 2)) ' ' ++ "- [[#".toList ++ head.text ++
    '|' :: head.text ++ "]]".toList

/-- The links to all headings from level two through `depth`. -/
def tocEntries (heads : List Heading) (depth : Nat) : List Line :=
  (heads.filter fun head => 2 ≤ head.level && head.level ≤ depth).map tocEntry

/-- The table of contents of a buffer, from its first to its last marker. -/
def tocListing (lines : Buffer) (maxDepth : Nat) : List Line :=
  let entries := tocEntries (headings lines) (effectiveDepth maxDepth)
  startMarkerLines ++ [tocCaption] ++ (if entries.isEmpty then [noEntriesLine] else entries) ++
    endMarkerLines

/-- The table of contents of a buffer and the empty line below it. -/
def tocLines (lines : Buffer) (maxDepth : Nat) : List Line :=
  tocListing lines maxDepth ++ [[]]

/-! ### Keeping the table of contents -/

/-- The blocks and the orphan end markers of a buffer. -/
def tocSpans (lines : Buffer) : List Span :=
  tocBlocks lines ++ orphanEndMarkers lines (tocBlocks lines)

/-- The lines of the buffer that lie in a span. -/
def Buffer.linesOf (lines : Buffer) (span : Span) : List Line :=
  (lines.drop span.first).take (span.last + 1 - span.first)

/-- The buffer has one block, which starts at `place` and reads as it would be written, and it
has no orphan end marker. -/
def isTocCurrent (lines : Buffer) (place maxDepth : Nat) : Bool :=
  match tocBlocks lines with
  | [block] =>
    (orphanEndMarkers lines [block]).isEmpty && block.first == place &&
      lines.linesOf block == tocListing lines maxDepth
  | _ => false

/-- How many lines above `place` lie in one of the spans. -/
def linesTakenAbove (spans : List Span) (place : Nat) : Nat :=
  spans.foldr (fun span count => span.linesAbove place + count) 0

/-- The buffer with the table of contents that belongs two lines below the anchor at `anchor`,
or without any if no heading is to be listed. -/
def ensureToc (lines : Buffer) (anchor maxDepth : Nat) : Buffer :=
  let place := anchor + 2
  let spans := tocSpans lines
  if !hasSections (headings lines) (effectiveDepth maxDepth) then lines.without spans
  else if isTocCurrent lines place maxDepth then lines
  else
    (lines.without spans).insertAt (place - linesTakenAbove spans place) (tocLines lines maxDepth)

end Waymark
