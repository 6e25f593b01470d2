import Waymark.Buffer
import Waymark.Text

/-!
# Headings and sections

A heading line is one to six `#`, a run of blanks and a text. Every such line counts,
wherever it stands in a note, also inside a fenced block of code. A closing run of `#`
and the blanks around it are not part of the heading's text.

A section is a heading with all lines up to the next heading that is not deeper.

## Main definitions

* `afterGap?` — what follows the blanks behind the hashes
* `withoutClosingHashes` — a heading's text without the hashes that close it
* `headingOfLine?`, `isHeadingLine`, `headings` — recognising headings
* `titleOfLine?`, `findTitle` — the first level-one heading, by its own recogniser
* `sectionEnd`, `sectionEndAt?` — the last line of a section
* `hasSections` — some heading is to be listed
-/

namespace Waymark

/-- A heading line of a buffer. -/
structure Heading where
  /-- Index of the heading line. -/
  line : Nat
  /-- Number of `#` at the front of the line. -/
  level : Nat
  /-- The heading's text, without closing hashes. -/
  text : List Char
  deriving DecidableEq, Repr

/-- The text can start a heading's text: it has a first character, which is no line feed. -/
def startsText : List Char → Bool
  | [] => false
  | c :: _ => c != '\n'

/-- What follows a run of blanks at the front of the text. The run is as long as it can be
while a heading's text can start behind it, so it may leave some of the blanks. -/
def afterGap? : List Char → Option (List Char)
  | [] => none
  | c :: rest =>
    if isBlankChar c then
      -- A longer gap is taken if it leaves a text.
      (afterGap? rest).or (if startsText rest then some rest else none)
    else none

/-- Only blanks, then only hashes, then only blanks. -/
def isClosingHashes (text : List Char) : Bool :=
  isBlank ((trimStart text).dropWhile (· == '#'))

/-- The text without its longest tail of blanks, hashes and blanks. -/
def withoutClosingHashes : List Char → List Char
  | [] => []
  | c :: rest => if isClosingHashes (c :: rest) then [] else c :: withoutClosingHashes rest

/-- The heading's text within what follows the gap: up to a line feed, less closing hashes. -/
def headingText (rest : List Char) : List Char :=
  withoutClosingHashes (rest.takeWhile (· != '\n'))

/-- Level and text of a heading line. -/
def headingOfLine? (line : Line) : Option (Nat × List Char) :=
  let level := (line.takeWhile (· == '#')).length
  if 1 ≤ level && level ≤ 6 then
    (afterGap? (line.drop level)).map fun rest => (level, headingText rest)
  else none

/-- The line is a heading of some level. -/
def isHeadingLine (line : Line) : Bool :=
  (headingOfLine? line).isSome

/-- The headings of the lines, the first line having the given index. -/
def headingsFrom (index : Nat) : List Line → List Heading
  | [] => []
  | line :: rest =>
    match headingOfLine? line with
    | some (level, text) => ⟨index, level, text⟩ :: headingsFrom (index + 1) rest
    | none => headingsFrom (index + 1) rest

/-- All headings of a buffer, from first to last. -/
def headings (lines : Buffer) : List Heading :=
  headingsFrom 0 lines

/-- The text of a level-one heading line. -/
def titleOfLine? : Line → Option (List Char)
  | '#' :: rest => (afterGap? rest).map headingText
  | _ => none

/-- The first level-one heading of the lines, the first line having the given index. -/
def findTitleFrom (index : Nat) : List Line → Option (Nat × List Char)
  | [] => none
  | line :: rest =>
    match titleOfLine? line with
    | some text => some (index, text)
    | none => findTitleFrom (index + 1) rest

/-- The first level-one heading at or after line `start`: its index and its text. -/
def findTitle (lines : Buffer) (start : Nat) : Option (Nat × List Char) :=
  findTitleFrom start (lines.drop start)

/-- Last line of the section of a heading of level `level`, given the headings after it: the
line before the next one that is not deeper, or the last line of the note. -/
def sectionEnd (level : Nat) (later : List Heading) (lineCount : Nat) : Nat :=
  match later.find? (·.level ≤ level) with
  | some next => next.line - 1
  | none => lineCount - 1

/-- Last line of the section of the heading at position `position`, if there is one. -/
def sectionEndAt? (heads : List Heading) (position lineCount : Nat) : Option Nat :=
  heads[position]?.map fun head => sectionEnd head.level (heads.drop (position + 1)) lineCount

/-- Some heading lies below the title level and no deeper than `maxDepth`. -/
def hasSections (heads : List Heading) (maxDepth : Nat) : Bool :=
  heads.any fun head => 2 ≤ head.level && head.level ≤ maxDepth

end Waymark
