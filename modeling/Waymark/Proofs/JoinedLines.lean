import Waymark.Proofs.LineEnds

/-!
# Joining what was cut

A text is cut at every line feed, and each line that a line feed ends gives up one carriage return
at its end. The last line ends with the text and keeps everything. So joining the lines gives the
text back with its line ends written alike, as if each pair of a carriage return and a line feed
had been replaced once. A carriage return that then stands before a line feed is left over from two
or more in front of one.

Together with the way back this says that cutting and joining lose nothing but the spelling of line
ends: proper lines are read from what they were joined to.

## Main definitions

* `replaceAll` — a text with a pattern replaced, from left to right
* `IsCut` — what is asked of the lines of a text

## Main results

* `splitLines_eq` — the lines of a text are its pieces between line feeds, cleaned up to the last
* `unifyLineEnds_eq_replaceAll` — writing line ends alike is replacing the pairs
* `cutting_and_joining` — both directions, for every text and for all proper lines
-/

namespace Waymark

/-- The text with the pattern replaced wherever it stands, from left to right. The first `inside`
characters belong to a pattern that was replaced before. -/
def replaceFrom (pattern replacement : List Char) (inside : Nat) : List Char → List Char
  | [] => []
  | c :: rest =>
    match inside with
    | inside + 1 => replaceFrom pattern replacement inside rest
    | 0 =>
      if pattern.isPrefixOf (c :: rest) then
        replacement ++ replaceFrom pattern replacement (pattern.length - 1) rest
      else c :: replaceFrom pattern replacement 0 rest

/-- The text with each occurrence of the pattern replaced once, from left to right. -/
def replaceAll (pattern replacement text : List Char) : List Char :=
  replaceFrom pattern replacement 0 text

/-- What is asked of the lines that a text is cut into. -/
structure IsCut (text : List Char) (lines : Buffer) : Prop where
  /-- No line holds a line feed. -/
  newline_not_mem : ∀ line ∈ lines, '\n' ∉ line
  /-- Every line feed ends a line, and there is one line more. -/
  length_eq : lines.length = text.count '\n' + 1
  /-- A line that a line feed ends is the piece before it, less one carriage return. -/
  eq_pieces : lines = (text.splitOn '\n').dropLast.map withoutReturn ++
    (text.splitOn '\n').getLast?.toList
  /-- Joined, the lines are the text with its line ends written alike. -/
  joined : joinLines lines = replaceAll ['\r', '\n'] ['\n'] text

/-! ### Pieces -/

/-- The lines of a text are its pieces between line feeds, all but the last less a carriage return
at their ends. -/
theorem splitLines_eq (text : List Char) :
    splitLines text =
      (text.splitOn '\n').dropLast.map withoutReturn ++ (text.splitOn '\n').getLast?.toList := by
  obtain ⟨front, last, hpieces⟩ :=
    (List.eq_nil_or_concat' (text.splitOn '\n')).resolve_left (List.splitOn_ne_nil _ _)
  have hclean : ∀ piece ∈ front ++ [last], '\n' ∉ piece := fun piece hpiece =>
    not_mem_of_mem_splitOn (hpieces ▸ hpiece)
  have htext : joinLines (front ++ [last]) = text := by rw [← hpieces, joinLines_splitOn]
  conv_lhs => rw [← htext, splitLines_joinLines]
  rw [hpieces, List.dropLast_concat, List.getLast?_concat,
    relined_concat (fun piece hpiece => hclean piece (List.mem_append_left _ hpiece))
      (hclean last (by simp))]
  rfl

theorem length_splitLines (text : List Char) : (splitLines text).length = text.count '\n' + 1 := by
  rw [← length_splitOn, splitLines_eq, List.length_append, List.length_map, List.length_dropLast,
    List.getLast?_eq_some_getLast (List.splitOn_ne_nil _ _), Option.toList_some,
    List.length_singleton]
  have hpos := List.length_pos_of_ne_nil (List.splitOn_ne_nil '\n' text)
  omega

/-! ### Line ends written alike -/

theorem joinLines_splitLines (text : List Char) :
    joinLines (splitLines text) = unifyLineEnds text :=
  joinLines_splitOn (unifyLineEnds text)

/-- Writing line ends alike is replacing each pair of a carriage return and a line feed. -/
theorem unifyLineEnds_eq_replaceAll (text : List Char) :
    unifyLineEnds text = replaceAll ['\r', '\n'] ['\n'] text := by
  rw [replaceAll]
  induction text with
  | nil => rfl
  | cons c rest ih =>
    rw [unifyLineEnds, ih]
    by_cases hpair : c = '\r' ∧ rest.head? = some '\n'
    · -- The line feed of the pair stays and belongs to no other pair.
      obtain ⟨rfl, hhead⟩ := hpair
      obtain ⟨behind, rfl⟩ := List.head?_eq_some_iff.mp hhead
      simp [replaceFrom]
    · have hprefix : ['\r', '\n'].isPrefixOf (c :: rest) = false := by
        rw [Bool.eq_false_iff, ne_eq, List.isPrefixOf_iff_prefix, List.cons_prefix_cons]
        rintro ⟨rfl, behind, rfl⟩
        exact hpair ⟨rfl, rfl⟩
      rw [if_neg hpair, replaceFrom, hprefix]
      rfl

/-- Of two carriage returns before a line feed, one stays. -/
example : replaceAll ['\r', '\n'] ['\n'] "a\r\r\nb\r".toList = "a\r\nb\r".toList := by
  decide

theorem isCut_splitLines (text : List Char) : IsCut text (splitLines text) where
  newline_not_mem := fun _ => not_mem_of_mem_splitLines
  length_eq := length_splitLines text
  eq_pieces := splitLines_eq text
  joined := (joinLines_splitLines text).trans (unifyLineEnds_eq_replaceAll text)

/-- Cutting and joining undo each other up to the spelling of line ends: every text is cut at its
line feeds and comes back with its line ends written alike, and proper lines come back as they
were. -/
theorem cutting_and_joining :
    (∀ text : List Char, IsCut text (splitLines text)) ∧
      ∀ lines : Buffer, lines ≠ [] → ProperLines lines → splitLines (joinLines lines) = lines :=
  ⟨isCut_splitLines, fun _ => splitLines_joinLines_eq_self⟩

/-- Lines with carriage returns at their fronts, an empty line, and a carriage return at the end of
the last one. -/
def oddLines : Buffer :=
  ["\ra".toList, [], "\r\rb".toList, "\r".toList]

theorem cutting_and_joining_oddLines :
    oddLines ≠ [] ∧ ProperLines oddLines ∧ splitLines (joinLines oddLines) = oddLines := by
  have hne : oddLines ≠ [] := by decide
  have hproper : ProperLines oddLines := by
    constructor
    · decide
    · decide
  exact ⟨hne, hproper, cutting_and_joining.2 oddLines hne hproper⟩

end Waymark
