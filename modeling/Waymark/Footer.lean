import Waymark.Top

/-!
# Footers

A footer is a link back to the anchor, an empty line and a rule line. Footers are found
also where the link was edited by hand: without the caret, or with other blanks.

Only footers inside a section of a configured level are replaced; the line of a heading
is not inside the section it opens. A footer takes the rule line below it with it, across
blank lines, and the next footer likewise, so that a stack of footers is one span and
leaves no blank lines behind.

Every section of a configured level ends in exactly one footer. Old footers are taken
out first. New ones are put in from the last heading to the first, so where two sections
end on one line, the footer of the inner section stands above that of the outer one. The
indices of the headings below an insertion move with it.

## Main definitions

* `backToTop` — the link as it is written
* `isFooterLine` — the links that are taken for a footer
* `ruleLine` — the rule line written for a configured one
* `sectionBound?` — the furthest end of the configured sections around a line
* `unitReach` — how many lines after a footer line go with it
* `footerSpans` — the footers to be replaced
* `footerLines` — the lines of one footer
* `insertFooters` — new footers, and the headings where they then are
* `ensureFooters` — the buffer with its footers renewed
-/

namespace Waymark

/-! ### Footer lines and rule lines -/

/-- The link of a footer. -/
def backToTop : Line := "[[#^top|↩️ Back to Top]]".toList

/-- The text without a caret at its front. -/
def withoutCaret : List Char → List Char
  | '^' :: rest => rest
  | text => text

/-- The line is a link of a footer, with or without the caret. Blanks may stand after `#`, after
`|` and behind the arrow. -/
def isFooterLine (line : Line) : Bool :=
  let rest? := do
    let text ← after? "[[#".toList line
    let text ← after? "top|".toList (withoutCaret (trimStart text))
    let text ← after? "↩️".toList (trimStart text)
    after? "Back to Top]]".toList (trimStart text)
  rest? == some []

/-- The rule line that is written where none is configured. -/
def defaultRule : Line := "---".toList

/-- The rule line that is written for a configured one. An empty one, or one that would open a
section as a heading, gives way to the default. -/
def ruleLine (rule : List Char) : Line :=
  if rule.isEmpty || isHeadingLine rule then defaultRule else rule

/-! ### Footers in sections -/

/-- The last lines of the configured sections that line `index` lies in. -/
def sectionEndsAround (levels : List Nat) (lineCount index : Nat) : List Heading → List Nat
  | [] => []
  | head :: later =>
    let last := sectionEnd head.level later lineCount
    let ends := sectionEndsAround levels lineCount index later
    if levels.contains head.level && head.line < index && index ≤ last then last :: ends else ends

/-- The furthest last line of the configured sections that line `index` lies in, if any. -/
def sectionBound? (levels : List Nat) (heads : List Heading) (lineCount index : Nat) :
    Option Nat :=
  (sectionEndsAround levels lineCount index heads).max?

/-- How many of the lines after a footer line go with it: through the last line that is the
footer's rule line (unless one was met already, `ruled`) or a further footer, with only blank
lines between them. -/
def unitReach (rule : Line) (ruled : Bool) : List Line → Nat
  | [] => 0
  | line :: rest =>
    if isBlank line then
      -- A blank line goes with the unit only if more of the unit follows.
      match unitReach rule ruled rest with
      | 0 => 0
      | reach + 1 => reach + 2
    else if !ruled && isMarkLine rule line then unitReach rule true rest + 1
    else if isFooterLine line then unitReach rule false rest + 1
    else 0

/-- The footers among the lines, the first line having index `index`. The first `inside` lines
belong to a footer that was found before. -/
def footerSpansFrom (bound? : Nat → Option Nat) (rule : Line) (inside index : Nat) :
    List Line → List Span
  | [] => []
  | line :: rest =>
    match inside with
    | inside + 1 => footerSpansFrom bound? rule inside (index + 1) rest
    | 0 =>
      match bound? index, isFooterLine line with
      | some bound, true =>
        let reach := unitReach rule false (rest.take (bound - index))
        ⟨index, index + reach⟩ :: footerSpansFrom bound? rule reach (index + 1) rest
      | _, _ => footerSpansFrom bound? rule 0 (index + 1) rest

/-- The footers inside the sections of the given levels. -/
def footerSpans (lines : Buffer) (levels : List Nat) (rule : Line) : List Span :=
  footerSpansFrom (sectionBound? levels (headings lines) lines.length) rule 0 0 lines

/-! ### Keeping the footers -/

/-- The lines of a footer. An empty line comes first unless the section ends blank. -/
def footerLines (rule : Line) (endsBlank : Bool) : List Line :=
  (if endsBlank then [] else [[]]) ++ [backToTop, [], rule]

/-- The heading after `count` lines were put in at index `place`. -/
def Heading.shift (head : Heading) (place count : Nat) : Heading :=
  if place ≤ head.line then { head with line := head.line + count } else head

/-- The buffer with a footer at the end of each section that `heads` opens at one of the levels,
worked from the last heading to the first, and the headings at their new lines. -/
def insertFooters (levels : List Nat) (rule : Line) :
    List Heading → Buffer → Buffer × List Heading
  | [], lines => (lines, [])
  | head :: later, lines =>
    let (lines, later) := insertFooters levels rule later lines
    if levels.contains head.level then
      let last := sectionEnd head.level later lines.length
      let footer := footerLines rule (isBlank (lines[last]?.getD []))
      (lines.insertAt (last + 1) footer,
        head :: later.map (·.shift (last + 1) footer.length))
    else (lines, head :: later)

/-- The buffer with one footer at the end of each section of the given levels. -/
def ensureFooters (lines : Buffer) (levels : List Nat) (rule : List Char) : Buffer :=
  let rule := ruleLine rule
  let kept := lines.without (footerSpans lines levels rule)
  (insertFooters levels rule (headings kept) kept).1

end Waymark
