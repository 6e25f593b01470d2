/-!
# Line buffers

A note is worked on as a buffer of lines. Texts are cut at line feeds; the carriage
return of a `\r\n` pair belongs to the line end and is dropped, any other one stays
part of its line. Buffers are joined with bare line feeds.

Spans name the lines that a stage takes out of a buffer. All spans of a stage refer
to the same buffer, so taking them out keeps exactly the lines outside every span.

## Main definitions

* `Line`, `Buffer` — a line is a list of characters, a buffer a list of lines
* `splitLines`, `joinLines` — between texts and buffers
* `Buffer.insertAt` — put lines at an index, padding a short buffer with empty lines
* `Span`, `Buffer.without` — inclusive line spans, and a buffer less some spans
-/

namespace Waymark

/-- One line of a note, without its line end. -/
abbrev Line := List Char

/-- The lines of a note. -/
abbrev Buffer := List Line

/-- The text with every `\r\n` written as a bare line feed. -/
def unifyLineEnds : List Char → List Char
  | [] => []
  | c :: rest =>
    if c = '\r' ∧ rest.head? = some '\n' then unifyLineEnds rest else c :: unifyLineEnds rest

/-- The lines of a text. An empty text is one empty line. -/
def splitLines (text : List Char) : Buffer :=
  (unifyLineEnds text).splitOn '\n'

/-- The text of a buffer, with a line feed between any two lines. -/
def joinLines (lines : Buffer) : List Char :=
  ['\n'].intercalate lines

/-- An inclusive range of line indices. -/
structure Span where
  /-- Index of the first line. -/
  first : Nat
  /-- Index of the last line. -/
  last : Nat
  deriving DecidableEq, Repr

namespace Span

/-- The span of one line. -/
def single (index : Nat) : Span := ⟨index, index⟩

/-- Line `index` lies in the span. -/
def contains (span : Span) (index : Nat) : Bool :=
  span.first ≤ index && index ≤ span.last

/-- How many lines of the span lie above line `index`. -/
def linesAbove (span : Span) (index : Nat) : Nat :=
  if index ≤ span.first then 0 else min span.last (index - 1) - span.first + 1

end Span

namespace Buffer

/-- The buffer with `inserted` placed so that its first line has the given index. A buffer
that ends before that index is first padded with empty lines. -/
def insertAt (lines : Buffer) (index : Nat) (inserted : List Line) : Buffer :=
  lines.take index ++ List.replicate (index - lines.length) [] ++ inserted ++ lines.drop index

/-- The lines of the buffer that lie in none of the spans. -/
def without (lines : Buffer) (spans : List Span) : Buffer :=
  (lines.zipIdx.filter fun (_, index) => !spans.any (·.contains index)).map (·.1)

end Buffer

end Waymark
