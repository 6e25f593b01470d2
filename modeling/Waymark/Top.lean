import Waymark.Heading

/-!
# The top of a note

A note may open with a block of metadata between two fences, lines of three dashes.
Only blank lines may stand above the opening fence, and a fence that is never closed
opens nothing.

The first level-one heading below the frontmatter is the title of a note. A note that
has none gets one made from its file name, with one empty line above it and one below.

Footers link to the anchor line `^top`. A note keeps exactly one such line, at a given
place, with an empty line below it. All other copies are taken out, and each one that
stood above moves the place up by one line.

## Main definitions

* `isMarkLine` — a line that holds a given mark and nothing else behind it
* `isFence` — the lines that open and close a frontmatter block
* `findFrontmatter` — the span from fence to fence
* `ensureFrontmatter` — an empty block on top of a note that has none
* `prettyTitle` — a file name as a title: separators become spaces, words start upper case
* `titleOfName` — the title of a note of a given file name
* `ensureTitle` — the buffer with a title heading, its index and its text
* `ensureEmptyAfter` — an empty line below a given one
* `topAnchor` — the anchor line
* `anchorsAbove` — how many anchors stand above a line
* `withoutStrayAnchors` — the buffer less the anchors at other places
* `ensureTopAnchor` — the buffer with its one anchor, and the index of that anchor
-/

namespace Waymark

/-! ### Frontmatter -/

/-- The line starts with `mark`, and only blanks follow. -/
def isMarkLine (mark : List Char) (line : Line) : Bool :=
  ((after? mark line).map isBlank).getD false

/-- The line that fences a frontmatter block. -/
def fenceLine : Line := "---".toList

/-- The line opens or closes a frontmatter block. -/
def isFence (line : Line) : Bool :=
  isMarkLine fenceLine line

/-- The frontmatter block of a note, from its opening to its closing fence. -/
def findFrontmatter (lines : Buffer) : Option Span :=
  match lines.dropWhile isBlank with
  | [] => none
  | opening :: rest =>
    if isFence opening then
      let first := (lines.takeWhile isBlank).length
      (rest.findIdx? isFence).map fun offset => ⟨first, first + 1 + offset⟩
    else none

/-- An empty frontmatter block with the empty line below it. -/
def emptyFrontmatter : List Line := [fenceLine, fenceLine, []]

/-- The buffer with a frontmatter block, and the index of the closing fence. A note without a
block gets an empty one if `create` is set, and else has no closing fence. -/
def ensureFrontmatter (lines : Buffer) (create : Bool) : Buffer × Option Nat :=
  match findFrontmatter lines with
  | some span => (lines, some span.last)
  | none => if create then (emptyFrontmatter ++ lines, some 1) else (lines, none)

/-! ### The title heading -/

/-- The characters that separate words in a file name. -/
def isSeparator (c : Char) : Bool :=
  c == '-' || c == '_'

/-- Every run of separators becomes one space. -/
def spaceSeparators : List Char → List Char
  | [] => []
  | c :: rest =>
    if isSeparator c then
      if rest.head?.any isSeparator then spaceSeparators rest else ' ' :: spaceSeparators rest
    else c :: spaceSeparators rest

/-- Each ASCII letter that follows a space, or starts the text if `atStart` holds, in upper case. -/
def capitalizeWords (atStart : Bool) : List Char → List Char
  | [] => []
  | c :: rest => (if atStart then c.toUpper else c) :: capitalizeWords (c == ' ') rest

/-- A file name as a title: separators become spaces, and words start in upper case. -/
def prettyTitle (name : List Char) : List Char :=
  capitalizeWords true (spaceSeparators name)

/-- The title of a note that has no file name. -/
def fallbackTitle : List Char := "Untitled".toList

/-- The title made for a note with the given file name. -/
def titleOfName (name : List Char) (pretty : Bool) : List Char :=
  let name := if name.isEmpty then fallbackTitle else name
  if pretty then prettyTitle name else name

/-- The level-one heading line with the given text. -/
def titleLine (title : List Char) : Line :=
  '#' :: ' ' :: title

/-- The line after `index` exists and is not empty. Lines of blanks count as not empty. -/
def isFilledAt (lines : Buffer) (index : Nat) : Bool :=
  lines[index]?.any fun line => !line.isEmpty

/-- The buffer with an empty line at `index` if a line that is not empty stood there. -/
def ensureEmptyAt (lines : Buffer) (index : Nat) : Buffer :=
  if isFilledAt lines index then lines.insertAt index [[]] else lines

/-- The buffer with a title heading below the frontmatter that ends at `fence`, the index of
that heading, and its text. The heading is the first one there is, or one made from `name`. -/
def ensureTitle (lines : Buffer) (fence : Option Nat) (name : List Char) (pretty : Bool) :
    Buffer × Nat × List Char :=
  let start := fence.elim 0 (· + 1)
  match findTitle lines start with
  | some (index, title) => (lines, index, title)
  | none =>
    let title := titleOfName name pretty
    ((ensureEmptyAt lines start).insertAt (start + 1) [titleLine title, []], start + 1, title)

/-- The buffer with an empty line below line `index`, unless nothing but such a line is there. -/
def ensureEmptyAfter (lines : Buffer) (index : Nat) : Buffer :=
  ensureEmptyAt lines (index + 1)

/-! ### The anchor -/

/-- The line that footers link to. -/
def topAnchor : Line := "^top".toList

/-- How many anchor lines stand above line `index`. -/
def anchorsAbove (lines : Buffer) (index : Nat) : Nat :=
  (lines.take index).count topAnchor

/-- The buffer without the anchor lines that stand elsewhere than at `index`. -/
def withoutStrayAnchors (lines : Buffer) (index : Nat) : Buffer :=
  (lines.take index).filter (· != topAnchor) ++ (lines.drop index).take 1 ++
    (lines.drop (index + 1)).filter (· != topAnchor)

/-- The buffer with an anchor line at `index`, put there unless it is one already. -/
def ensureAnchorAt (lines : Buffer) (index : Nat) : Buffer :=
  if lines[index]? = some topAnchor then lines else lines.insertAt index [topAnchor]

/-- The buffer with one anchor line and an empty line below it. The anchor's place is `index`,
less the anchors that are taken out above it; the second component is that place. -/
def ensureTopAnchor (lines : Buffer) (index : Nat) : Buffer × Nat :=
  let target := index - anchorsAbove lines index
  (ensureEmptyAt (ensureAnchorAt (withoutStrayAnchors lines index) target) (target + 1), target)

end Waymark
