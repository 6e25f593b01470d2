import Waymark.Proofs.Pieces
import Waymark.Proofs.Recognisers

/-!
# The outline of a buffer

The outline lists level and text of every heading, in order, without the indices of
their lines. Whatever the tables of contents say is read off the outline, so stages that
keep it may move lines as they like.

## Main definitions

* `outline` — level and text of all headings
* `titleCount` — how many of them are of level one

## Main results

* `outline_eq_filterMap`, `outline_append` — the outline is gathered line by line
* `outline_filter_eq_iff` — the outline stays where every heading does
* `tocListing_congr`, `hasSections_congr` — a table of contents is decided by the outline
-/

namespace Waymark

/-- Level and text of all headings of a buffer, from first to last. -/
def outline (lines : Buffer) : List (Nat × List Char) :=
  (headings lines).map fun head => (head.level, head.text)

/-- How many level-one headings a buffer has. -/
def titleCount (lines : Buffer) : Nat :=
  (outline lines).countP (·.1 = 1)

variable {lines lines' front back : Buffer} {line : Line}

/-! ### Headings by position -/

theorem headingsFrom_cons_of_not_heading {index : Nat} (h : headingOfLine? line = none) :
    headingsFrom index (line :: lines) = headingsFrom (index + 1) lines := by
  simp [headingsFrom, h]

theorem headingsFrom_cons_of_heading {index level : Nat} {text : List Char}
    (h : headingOfLine? line = some (level, text)) :
    headingsFrom index (line :: lines) =
      ⟨index, level, text⟩ :: headingsFrom (index + 1) lines := by
  simp [headingsFrom, h]

theorem headingsFrom_append (index : Nat) (front back : Buffer) :
    headingsFrom index (front ++ back) =
      headingsFrom index front ++ headingsFrom (index + front.length) back := by
  induction front generalizing index with
  | nil => simp [headingsFrom]
  | cons line front ih =>
    rw [List.cons_append, add_length_cons]
    cases h : headingOfLine? line with
    | none =>
      rw [headingsFrom_cons_of_not_heading h, headingsFrom_cons_of_not_heading h, ih]
    | some pair =>
      rw [headingsFrom_cons_of_heading h, headingsFrom_cons_of_heading h, ih, List.cons_append]

/-- Moving all lines moves the headings and changes nothing else. -/
theorem headingsFrom_add (index count : Nat) (lines : Buffer) :
    headingsFrom (index + count) lines =
      (headingsFrom index lines).map fun head => { head with line := head.line + count } := by
  induction lines generalizing index with
  | nil => rfl
  | cons line lines ih =>
    have hindex : index + count + 1 = index + 1 + count := by omega
    cases h : headingOfLine? line with
    | none => rw [headingsFrom_cons_of_not_heading h, headingsFrom_cons_of_not_heading h, hindex,
        ih]
    | some pair =>
      rw [headingsFrom_cons_of_heading h, headingsFrom_cons_of_heading h, hindex, ih, List.map_cons]

theorem le_line_of_mem_headingsFrom {index : Nat} {head : Heading}
    (h : head ∈ headingsFrom index lines) : index ≤ head.line := by
  induction lines generalizing index with
  | nil => cases h
  | cons line lines ih =>
    cases hline : headingOfLine? line with
    | none =>
      rw [headingsFrom_cons_of_not_heading hline] at h
      exact Nat.le_of_succ_le (ih h)
    | some pair =>
      rw [headingsFrom_cons_of_heading hline] at h
      rcases List.mem_cons.mp h with rfl | h
      · exact Nat.le_refl _
      · exact Nat.le_of_succ_le (ih h)

theorem line_lt_of_mem_headingsFrom {index : Nat} {head : Heading}
    (h : head ∈ headingsFrom index lines) : head.line < index + lines.length := by
  induction lines generalizing index with
  | nil => cases h
  | cons line lines ih =>
    rw [List.length_cons]
    cases hline : headingOfLine? line with
    | none =>
      rw [headingsFrom_cons_of_not_heading hline] at h
      have := ih h
      omega
    | some pair =>
      rw [headingsFrom_cons_of_heading hline] at h
      rcases List.mem_cons.mp h with rfl | h
      · exact Nat.lt_add_of_pos_right (Nat.succ_pos _)
      · have := ih h
        omega

/-- A heading of a buffer cuts it in two, and its position is the number of headings above it. -/
theorem exists_of_getElem?_headingsFrom {index position : Nat} {head : Heading}
    (h : (headingsFrom index lines)[position]? = some head) :
    ∃ front title below, lines = front ++ title :: below ∧ head.line = index + front.length ∧
      headingOfLine? title = some (head.level, head.text) ∧
        position = (headingsFrom index front).length := by
  induction lines generalizing index position with
  | nil => cases h
  | cons line lines ih =>
    cases hline : headingOfLine? line with
    | none =>
      rw [headingsFrom_cons_of_not_heading hline] at h
      obtain ⟨front, title, below, rfl, hplace, htitle, hposition⟩ := ih h
      refine ⟨line :: front, title, below, rfl, ?_, htitle, ?_⟩
      · rw [hplace, List.length_cons]
        omega
      · rw [headingsFrom_cons_of_not_heading hline, hposition]
    | some pair =>
      rw [headingsFrom_cons_of_heading hline] at h
      cases position with
      | zero =>
        obtain rfl := Option.some.inj h
        exact ⟨[], line, lines, rfl, rfl, hline, rfl⟩
      | succ position =>
        obtain ⟨front, title, below, rfl, hplace, htitle, hposition⟩ := ih h
        refine ⟨line :: front, title, below, rfl, ?_, htitle, ?_⟩
        · rw [hplace, List.length_cons]
          omega
        · rw [headingsFrom_cons_of_heading hline, List.length_cons, hposition]

theorem headingsFrom_eq_nil {index : Nat} (h : ∀ line ∈ lines, isHeadingLine line = false) :
    headingsFrom index lines = [] := by
  induction lines generalizing index with
  | nil => rfl
  | cons line lines ih =>
    have hline := isHeadingLine_eq_false_iff.mp (h line List.mem_cons_self)
    rw [headingsFrom_cons_of_not_heading hline, ih fun l hl => h l (List.mem_cons_of_mem _ hl)]

/-! ### The outline line by line -/

theorem map_headingsFrom (index : Nat) (lines : Buffer) :
    (headingsFrom index lines).map (fun head => (head.level, head.text)) =
      lines.filterMap headingOfLine? := by
  induction lines generalizing index with
  | nil => rfl
  | cons line lines ih =>
    cases h : headingOfLine? line with
    | none => rw [headingsFrom_cons_of_not_heading h, List.filterMap_cons_none h, ih]
    | some pair =>
      rw [headingsFrom_cons_of_heading h, List.filterMap_cons_some h, List.map_cons, ih]

/-- The outline is gathered line by line. -/
theorem outline_eq_filterMap (lines : Buffer) : outline lines = lines.filterMap headingOfLine? :=
  map_headingsFrom 0 lines

@[simp] theorem outline_nil : outline [] = [] := rfl

@[simp] theorem outline_append (front back : Buffer) :
    outline (front ++ back) = outline front ++ outline back := by
  simp only [outline_eq_filterMap, List.filterMap_append]

theorem outline_cons (line : Line) (lines : Buffer) :
    outline (line :: lines) = outline [line] ++ outline lines :=
  outline_append [line] lines

theorem outline_singleton (line : Line) : outline [line] = (headingOfLine? line).toList := by
  rw [outline_eq_filterMap]
  cases h : headingOfLine? line with
  | none => rw [List.filterMap_cons_none h]; rfl
  | some pair => rw [List.filterMap_cons_some h]; rfl

theorem outline_cons_of_not_heading (h : isHeadingLine line = false) :
    outline (line :: lines) = outline lines := by
  rw [outline_cons, outline_singleton, isHeadingLine_eq_false_iff.mp h]
  rfl

theorem outline_eq_nil (h : ∀ line ∈ lines, isHeadingLine line = false) : outline lines = [] := by
  rw [outline_eq_filterMap, List.filterMap_eq_nil_iff]
  exact fun line hline => isHeadingLine_eq_false_iff.mp (h line hline)

theorem length_headings (lines : Buffer) : (headings lines).length = (outline lines).length :=
  (List.length_map _).symm

/-- Taking lines out takes headings out. -/
theorem outline_sublist (h : lines.Sublist lines') : (outline lines).Sublist (outline lines') := by
  rw [outline_eq_filterMap, outline_eq_filterMap]
  exact h.filterMap _

/-- A filter that keeps all headings keeps the outline. -/
theorem outline_filter {keep : Line → Bool}
    (h : ∀ line ∈ lines, isHeadingLine line = true → keep line = true) :
    outline (lines.filter keep) = outline lines := by
  induction lines with
  | nil => rfl
  | cons line lines ih =>
    have htail := ih fun l hl => h l (List.mem_cons_of_mem _ hl)
    cases hkeep : keep line with
    | true => rw [List.filter_cons_of_pos hkeep, outline_cons, htail, ← outline_cons]
    | false =>
      have hline : isHeadingLine line = false := by
        by_contra hne
        rw [h line List.mem_cons_self (by simpa using hne)] at hkeep
        cases hkeep
      rw [List.filter_cons_of_neg (by simp [hkeep]), outline_cons_of_not_heading hline, htail]

/-- Only a filter that keeps all headings keeps the outline. -/
theorem outline_filter_eq_iff {keep : Line → Bool} :
    outline (lines.filter keep) = outline lines ↔
      ∀ line ∈ lines, isHeadingLine line = true → keep line = true := by
  refine ⟨fun h => ?_, outline_filter⟩
  induction lines with
  | nil => exact fun _ hline => absurd hline List.not_mem_nil
  | cons line lines ih =>
    cases hkeep : keep line with
    | true =>
      rw [List.filter_cons_of_pos hkeep, outline_cons, outline_cons line lines] at h
      exact List.forall_mem_cons.mpr ⟨fun _ => hkeep, ih (List.append_cancel_left h)⟩
    | false =>
      rw [List.filter_cons_of_neg (by simp [hkeep])] at h
      cases hline : isHeadingLine line with
      | false =>
        rw [outline_cons_of_not_heading hline] at h
        exact List.forall_mem_cons.mpr ⟨fun hne => by simp [hline] at hne, ih h⟩
      | true =>
        -- The heading that goes cannot be made up for by those that stay.
        obtain ⟨level, text, hpair⟩ := isHeadingLine_iff.mp hline
        have hle := (outline_sublist (List.filter_sublist (l := lines) (p := keep))).length_le
        rw [h, outline_cons, outline_singleton, hpair, List.length_append] at hle
        simp only [Option.toList_some, List.length_singleton] at hle
        omega

theorem titleCount_append (front back : Buffer) :
    titleCount (front ++ back) = titleCount front + titleCount back := by
  rw [titleCount, outline_append, List.countP_append]
  rfl

/-! ### Tables of contents -/

/-- Whether there are headings to list is decided by the outline. -/
theorem hasSections_eq (lines : Buffer) (depth : Nat) :
    hasSections (headings lines) depth =
      (outline lines).any fun pair => 2 ≤ pair.1 && pair.1 ≤ depth := by
  rw [hasSections, outline, List.any_map]
  rfl

theorem hasSections_congr (h : outline lines = outline lines') (depth : Nat) :
    hasSections (headings lines) depth = hasSections (headings lines') depth := by
  rw [hasSections_eq, hasSections_eq, h]

/-- A depth that is in its range stands for itself. -/
@[simp] theorem effectiveDepth_effectiveDepth (depth : Nat) :
    effectiveDepth (effectiveDepth depth) = effectiveDepth depth := by
  rw [effectiveDepth, effectiveDepth]
  simp only [defaultDepth, deepestLevel]
  split <;> split <;> omega

theorem tocEntries_eq (lines : Buffer) (depth : Nat) :
    tocEntries (headings lines) depth =
      ((outline lines).filter fun pair => 2 ≤ pair.1 && pair.1 ≤ depth).map
        fun pair => tocEntry ⟨0, pair.1, pair.2⟩ := by
  rw [tocEntries, outline, List.filter_map, List.map_map]
  rfl

/-- What a table of contents lists is decided by the outline. -/
theorem tocListing_congr (h : outline lines = outline lines') (depth : Nat) :
    tocListing lines depth = tocListing lines' depth := by
  simp only [tocListing, tocEntries_eq, h]

end Waymark
