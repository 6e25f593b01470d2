import Waymark.Proofs.Edits
import Waymark.Proofs.Idempotence

/-!
# Frontmatter and title settle together

Whether a buffer has frontmatter is told by its first visible line, and the stages of the
frontmatter and of the title both write near the top. A second pass finds all the same what the
first one left. A block that was found or made is found again, for nothing above its end changes.
Where there is none, either nothing was put in, or the first visible line is now the title that was
made, and a title is no fence. So the search for the title starts at the same line again, and finds
the same one.

## Main definitions

* `KeepsOrder` — the lines of a note in order, and what is put in besides
* `IsTitled` — a buffer with its frontmatter and its title

## Main results

* `Fenced.ensureFrontmatter_eq`, `Entitled.exists_ensureTitle_eq` — what a second pass finds
* `isTitled_titledLines` — the first two stages
-/

namespace Waymark

/-- The lines of a note stand in order below those of a new block. Either nothing else is put in, or
a title behind the first `start` lines and an empty one. -/
inductive KeepsOrder (lines : Buffer) (block : List Line) (title : Line) (start : Nat) :
    Buffer → Nat → Prop
  /-- No title is put in. -/
  | untouched (index : Nat) : KeepsOrder lines block title start (block ++ lines) index
  /-- A title is put in, for there is none below, with an empty line below it, and with one above it
  unless one stands there. -/
  | titled {front back top gap : Buffer} (hlines : lines = front ++ back)
    (hgap : gap = [] ∨ gap = [[]]) (habove : block ++ front ++ gap = top ++ [[]])
    (hstart : top.length = start) (hnone : ∀ line ∈ back, titleOfLine? line = none) :
    KeepsOrder lines block title start (block ++ front ++ gap ++ title :: [] :: back) (start + 1)

/-- The buffer `out` is that of `lines` with a frontmatter block that ends at `fence`, if there is
one, and with the title at `index`. -/
structure IsTitled (lines : Buffer) (name : List Char) (options : Options) (out : Buffer)
    (fence : Option Nat) (index : Nat) : Prop where
  /-- The stage of the frontmatter finds nothing to do. -/
  fenced : ensureFrontmatter out options.createFrontmatter = (out, fence)
  /-- The stage of the title finds nothing to do. -/
  entitled : ∃ text, ensureTitle out fence name options.prettifyTitle = (out, index, text)
  /-- The title stands below the frontmatter. -/
  below : fence.elim 0 (· + 1) ≤ index
  /-- It is a heading of level one. -/
  heading : ∃ title text, out[index]? = some title ∧ headingOfLine? title = some (1, text)
  /-- No other one stands between the frontmatter and it. -/
  first : ∀ i, fence.elim 0 (· + 1) ≤ i → i < index →
    ∀ line ∈ out[i]?, ∀ text, headingOfLine? line ≠ some (1, text)
  /-- The lines are kept, and besides a block and a title only empty lines are put in. -/
  kept : KeepsOrder lines (newBlock lines options.createFrontmatter)
    (titleLine (titleOfName name options.prettifyTitle)) (fence.elim 0 (· + 1)) out index

variable {lines front back above below : Buffer} {title : Line} {name : List Char}
variable {create pretty : Bool} {fence : Option Nat}

/-! ### The frontmatter -/

/-- With its title a buffer has the frontmatter that it had without. -/
theorem Fenced.ensureFrontmatter_eq (hname : '\n' ∉ name)
    (h : Fenced lines create front back fence)
    (hcut : Entitled (front ++ back) front.length name pretty above title below) :
    ensureFrontmatter (above ++ title :: below) create = (above ++ title :: below, fence) := by
  obtain ⟨text, htext⟩ := hcut.headingOfLine?_title hname
  have htitle : isHeadingLine title = true := isHeadingLine_iff.mpr ⟨1, text, htext⟩
  obtain ⟨middle, habove, -⟩ := hcut.exists_above
  cases h with
  | found _ hends =>
    rw [habove, List.append_assoc]
    exact ensureFrontmatter_append hends (middle ++ title :: below) create
  | made =>
    rw [habove, List.append_assoc]
    exact ensureFrontmatter_append endsFrontmatter_fences (middle ++ title :: below) true
  | absent hnone =>
    refine ensureFrontmatter_of_none ?_
    generalize hlines : ([] : Buffer) ++ lines = parts at hcut
    cases hcut with
    | found hparts => rwa [← hparts, ← hlines]
    | made =>
      -- The first visible line is the title.
      refine findFrontmatter_eq_none fun line hline => ?_
      rw [List.length_nil, List.take_zero, List.nil_append, dropWhile_isBlank_append (by decide)
        (isBlank_eq_false_of_isHeadingLine htitle), List.head?_cons] at hline
      obtain rfl := Option.some.inj hline
      exact isFence_eq_false_of_isHeadingLine htitle

/-! ### The title -/

/-- The title that was found or made is found again. -/
theorem Entitled.exists_ensureTitle_eq (hname : '\n' ∉ name)
    (hcut : Entitled (front ++ back) front.length name pretty above title below)
    (hstart : fence.elim 0 (· + 1) = front.length) : ∃ text,
      ensureTitle (above ++ title :: below) fence name pretty =
        (above ++ title :: below, above.length, text) := by
  obtain ⟨text, htext⟩ := hcut.headingOfLine?_title hname
  obtain ⟨middle, rfl, hmiddle⟩ := hcut.exists_above
  have hdrop :
      (front ++ middle ++ title :: below).drop front.length = middle ++ title :: below := by
    rw [List.append_assoc, List.drop_left]
  have hfind := findTitle_of_drop hdrop hmiddle (titleOfLine?_eq_some_iff.mpr htext)
  refine ⟨text, ?_⟩
  simp only [ensureTitle, hstart, hfind, List.length_append]

/-- An empty line belongs above a title. It is put in unless it stands there. -/
theorem keepsOrder_of_gap (front : Buffer)
    (hnone : ∀ line ∈ belowGap back, titleOfLine? line = none) :
    KeepsOrder (front ++ back) [] title front.length
      (front ++ [[]] ++ title :: [] :: belowGap back) (front.length + 1) := by
  have hparts : ∃ front' gap, front ++ back = front' ++ belowGap back ∧ (gap = [] ∨ gap = [[]]) ∧
      [] ++ front' ++ gap = front ++ [[]] := by
    rcases back with _ | ⟨_ | ⟨c, line⟩, back⟩
    · exact ⟨front, [[]], rfl, Or.inr rfl, rfl⟩
    · exact ⟨front ++ [[]], [], by simp [belowGap], Or.inl rfl, List.append_nil _⟩
    · exact ⟨front, [[]], rfl, Or.inr rfl, rfl⟩
  obtain ⟨front', gap, hlines, hgap, habove⟩ := hparts
  rw [← habove]
  exact .titled hlines hgap habove rfl hnone

/-- The lines of the note are kept in order, also where the title was made. -/
theorem Fenced.keepsOrder (h : Fenced lines create front back fence)
    (hcut : Entitled (front ++ back) front.length name pretty above title below) :
    KeepsOrder lines (newBlock lines create) (titleLine (titleOfName name pretty)) front.length
      (above ++ title :: below) above.length := by
  have hparts := h.append_eq
  generalize hfenced : front ++ back = fenced at hcut
  cases hcut with
  | found hlines =>
    rw [← hlines, ← hfenced, hparts]
    exact .untouched above.length
  | made hnone =>
    subst hfenced
    rw [List.drop_left] at hnone ⊢
    rw [List.take_left, List.length_append, List.length_singleton]
    have hbelow : ∀ line ∈ belowGap back, titleOfLine? line = none := fun line hline =>
      hnone line (mem_belowGap hline)
    cases h with
    | found hlines hends =>
      rw [hlines, newBlock_append hends]
      exact keepsOrder_of_gap front hbelow
    | made hfree =>
      -- The new block ends in the empty line that stands above the title.
      rw [newBlock_of_none hfree]
      exact .titled (List.nil_append lines).symm (Or.inl rfl) rfl rfl hbelow
    | absent hfree =>
      rw [newBlock_of_none hfree]
      exact keepsOrder_of_gap [] hbelow

/-! ### The two stages -/

/-- The first two stages, in place as well as on the whole buffer, leave a buffer with its
frontmatter and its title. A second pass would find both, and change nothing. -/
theorem isTitled_titledLines (lines : Buffer) (options : Options) (hname : '\n' ∉ name) :
    ((ensureFrontmatter? lines options.createFrontmatter).bind fun fenced =>
        ensureTitle? fenced.1 fenced.2 name options.prettifyTitle) =
      some (titledLines lines name options) ∧
    IsTitled lines name options (titledLines lines name options).1
      (ensureFrontmatter lines options.createFrontmatter).2
        (titledLines lines name options).2.1 := by
  refine ⟨by rw [ensureFrontmatter?_eq, Option.bind_some, ensureTitle?_eq, titledLines], ?_⟩
  obtain ⟨front, back, fence, hfenced, hstage⟩ :=
    fenced_ensureFrontmatter lines options.createFrontmatter
  have hstart := hfenced.start_eq
  have hle : fence.elim 0 (· + 1) ≤ (front ++ back).length := by
    rw [hstart, List.length_append]
    exact Nat.le_add_right _ _
  obtain ⟨above, title, below, text, hcut, htitled⟩ :=
    entitled_ensureTitle (front ++ back) fence name options.prettifyTitle hle
  rw [hstart] at hcut
  obtain ⟨middle, habove, hmiddle⟩ := hcut.exists_above
  have hlength : front.length ≤ above.length := by
    rw [habove, List.length_append]
    exact Nat.le_add_right _ _
  obtain ⟨text', htext⟩ := hcut.headingOfLine?_title hname
  rw [titledLines, hstage, htitled]
  refine ⟨hfenced.ensureFrontmatter_eq hname hcut, hcut.exists_ensureTitle_eq hname hstart, ?_,
    ⟨title, text', by simp, htext⟩, ?_, ?_⟩
  · rwa [hstart]
  · intro i hlow hhigh line hline text htext
    rw [hstart] at hlow
    rw [List.getElem?_append_left hhigh, habove, List.getElem?_append_right hlow] at hline
    have hnone := hmiddle line (List.mem_of_getElem? hline)
    rw [titleOfLine?_eq_some_iff.mpr htext] at hnone
    cases hnone
  · rw [hstart]
    exact hfenced.keepsOrder hcut

/-- A fence that is never closed opens nothing, and stands below the title that is made. -/
theorem isTitled_open_fence :
    (titledLines ["---".toList, "key: 1".toList] "a-note".toList {}).1 =
        [[], "# A Note".toList, [], "---".toList, "key: 1".toList] ∧
      IsTitled ["---".toList, "key: 1".toList] "a-note".toList {}
        [[], "# A Note".toList, [], "---".toList, "key: 1".toList] none 1 := by
  have htitled : titledLines ["---".toList, "key: 1".toList] "a-note".toList {} =
      ([[], "# A Note".toList, [], "---".toList, "key: 1".toList], 1, "A Note".toList) := by
    decide +kernel
  have hfence : (ensureFrontmatter ["---".toList, "key: 1".toList] false).2 = none := by
    decide +kernel
  have hname : '\n' ∉ "a-note".toList := by decide
  have htop := (isTitled_titledLines ["---".toList, "key: 1".toList] {} hname).2
  rw [htitled, hfence] at htop
  exact ⟨by rw [htitled], htop⟩

end Waymark
