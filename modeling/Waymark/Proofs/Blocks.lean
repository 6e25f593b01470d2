import Waymark.Proofs.Markers
import Waymark.Proofs.Outline
import Waymark.Proofs.Spans

/-!
# What the blocks of a table of contents take

Taking out every block and every orphan end marker leaves the lines outside blocks that are
no bare end markers. No block reaches over a heading, so headings cut a buffer into parts
that can be cleared one by one, and only a heading that mentions a start marker itself
is ever taken.

## Main definitions

* `outsideBlocks` — the lines outside blocks
* `withoutToc` — the lines that stay when all tables of contents are taken out

## Main results

* `withoutToc_append_heading` — a heading cuts the work in two
* `outline_withoutToc` — which headings go
* `without_tocSpans`, `tidySpans_tocSpans` — the spans of the stage leave these lines, and lie apart
-/

namespace Waymark

/-- The lines outside blocks. The first `inside` lines belong to a block found before. -/
def outsideBlocks (inside : Nat) : List Line → List Line
  | [] => []
  | line :: rest =>
    match inside with
    | inside + 1 => outsideBlocks inside rest
    | 0 =>
      if isStartMarker line then outsideBlocks (blockReach false rest) rest
      else line :: outsideBlocks 0 rest

/-- The lines that are left when all blocks and orphan end markers are taken out. -/
def withoutToc (lines : Buffer) : Buffer :=
  (outsideBlocks 0 lines).filter (!isBareEndMarker ·)

variable {lines front middle back : Buffer} {line title : Line} {closed : Bool} {inside index : Nat}

/-! ### How far a block reaches -/

theorem blockReach_le_length (closed : Bool) (lines : Buffer) :
    blockReach closed lines ≤ lines.length := by
  induction lines generalizing closed with
  | nil => exact Nat.le_refl _
  | cons line lines ih =>
    have hopen := ih closed
    have hclosed := ih true
    rw [blockReach, List.length_cons]
    split
    · omega
    · split
      · omega
      · split
        · omega
        · split <;> omega

/-- A block ends before the next heading, whatever stands below. -/
theorem blockReach_append_heading (h : isHeadingLine title = true) :
    blockReach closed (front ++ title :: back) = blockReach closed front := by
  induction front generalizing closed with
  | nil => simp [blockReach, h]
  | cons line front ih => simp only [List.cons_append, blockReach, ih]

theorem isHeadingLine_eq_false_of_mem_take_blockReach
    (h : line ∈ lines.take (blockReach closed lines)) : isHeadingLine line = false := by
  induction lines generalizing closed with
  | nil => simp at h
  | cons first lines ih =>
    rw [blockReach] at h
    split at h
    · simp at h
    · next hfirst =>
      have hhere : isHeadingLine first = false := by simpa using hfirst
      split at h
      · rcases List.mem_cons.mp h with rfl | h
        · exact hhere
        · exact ih h
      · split at h
        · simp at h
        · split at h
          · simp at h
          · next reach hreach =>
            rcases List.mem_cons.mp h with rfl | h
            · exact hhere
            · exact ih (by rwa [hreach])

/-- A block is one line where no end marker follows it before a heading. -/
theorem blockReach_eq_zero
    (h : ∀ line ∈ lines, isHeadingLine line = false → isEndMarker line = false) :
    blockReach closed lines = 0 := by
  induction lines generalizing closed with
  | nil => rfl
  | cons line lines ih =>
    have hrest : blockReach closed lines = 0 := ih fun l hl => h l (List.mem_cons_of_mem _ hl)
    cases hline : isHeadingLine line with
    | true => simp [blockReach, hline]
    | false => simp [blockReach, hline, h line List.mem_cons_self hline, hrest]

/-- A block runs through every end marker that no heading and no start marker stands above. -/
theorem blockReach_append_end
    (hfront : ∀ line ∈ front, isHeadingLine line = false ∧ isStartMarker line = false)
    (hhead : isHeadingLine line = false) (hend : isEndMarker line = true) (closed : Bool) :
    blockReach closed (front ++ line :: back) = front.length + 1 + blockReach true back := by
  induction front generalizing closed with
  | nil =>
    simp only [List.nil_append, blockReach, hhead, hend, if_true, List.length_nil]
    simp only [Bool.false_eq_true, if_false]
    omega
  | cons first front ih =>
    obtain ⟨hfirst, hfirstStart⟩ := hfront first List.mem_cons_self
    have hrest := fun closed => ih (fun l hl => hfront l (List.mem_cons_of_mem _ hl)) closed
    have hsucc : front.length + 1 + blockReach true back =
        front.length + blockReach true back + 1 := by
      omega
    rw [hsucc] at hrest
    simp only [List.cons_append, blockReach, hfirst, hfirstStart, hrest, Bool.false_and,
      Bool.false_eq_true, if_false, List.length_cons]
    split <;> omega

/-- A start marker does not end a block in which no end marker was seen yet. -/
theorem blockReach_cons_start (hhead : isHeadingLine line = false) (hend : isEndMarker line = false)
    (hreach : blockReach false back ≠ 0) :
    blockReach false (line :: back) = blockReach false back + 1 := by
  obtain ⟨reach, hreach⟩ := Nat.exists_eq_succ_of_ne_zero hreach
  simp only [blockReach, hhead, hend, hreach, Bool.and_false, Bool.false_eq_true, if_false]

/-! ### Lines outside blocks -/

theorem outsideBlocks_sublist (inside : Nat) (lines : Buffer) :
    (outsideBlocks inside lines).Sublist lines := by
  induction lines generalizing inside with
  | nil => exact List.Sublist.refl _
  | cons line lines ih =>
    cases inside with
    | succ inside => exact (ih inside).cons line
    | zero =>
      rw [outsideBlocks]
      split
      · exact (ih _).cons line
      · exact (ih _).cons_cons line

theorem outsideBlocks_append_heading (h : isHeadingLine title = true)
    (hinside : inside ≤ front.length) : outsideBlocks inside (front ++ title :: back) =
      outsideBlocks inside front ++ outsideBlocks 0 (title :: back) := by
  induction front generalizing inside with
  | nil =>
    obtain rfl : inside = 0 := Nat.le_zero.mp hinside
    rfl
  | cons line front ih =>
    cases inside with
    | succ inside => exact ih (Nat.le_of_succ_le_succ hinside)
    | zero =>
      rw [List.cons_append, outsideBlocks, outsideBlocks, blockReach_append_heading h]
      split
      · exact ih (blockReach_le_length _ _)
      · rw [ih (Nat.zero_le _), List.cons_append]

theorem outsideBlocks_eq_drop (inside : Nat) (lines : Buffer) :
    outsideBlocks inside lines = outsideBlocks 0 (lines.drop inside) := by
  induction lines generalizing inside with
  | nil => simp [outsideBlocks]
  | cons line lines ih =>
    cases inside with
    | zero => rfl
    | succ inside =>
      rw [outsideBlocks, List.drop_succ_cons]
      exact ih inside

theorem isStartMarker_eq_false_of_mem_outsideBlocks (h : line ∈ outsideBlocks inside lines) :
    isStartMarker line = false := by
  induction lines generalizing inside with
  | nil => cases h
  | cons first lines ih =>
    cases inside with
    | succ inside => exact ih h
    | zero =>
      rw [outsideBlocks] at h
      split at h
      · exact ih h
      · next hfirst =>
        rcases List.mem_cons.mp h with rfl | h
        · simpa using hfirst
        · exact ih h

theorem outline_outsideBlocks
    (hinside : ∀ line ∈ lines.take inside, isHeadingLine line = false) :
    outline (outsideBlocks inside lines) = outline (lines.filter (!isStartMarker ·)) := by
  induction lines generalizing inside with
  | nil => rfl
  | cons line lines ih =>
    cases inside with
    | succ inside =>
      have hline : isHeadingLine line = false := hinside line (by simp)
      have hrest := ih fun l hl => hinside l (List.mem_cons_of_mem _ hl)
      rw [outsideBlocks, hrest, List.filter_cons]
      split
      · rw [outline_cons_of_not_heading hline]
      · rfl
    | zero =>
      rw [outsideBlocks]
      split
      · next hstart =>
        -- The marker may be a heading, but the lines that its block reaches over are none.
        rw [List.filter_cons_of_neg (by simp [hstart])]
        exact ih fun l hl => isHeadingLine_eq_false_of_mem_take_blockReach hl
      · next hstart =>
        rw [List.filter_cons_of_pos (by simp [hstart]), outline_cons, ih (by simp),
          ← outline_cons]

/-! ### What stays -/

@[simp] theorem withoutToc_nil : withoutToc [] = [] := rfl

theorem withoutToc_sublist (lines : Buffer) : (withoutToc lines).Sublist lines :=
  List.filter_sublist.trans (outsideBlocks_sublist 0 lines)

/-- A heading cuts the work in two: what goes above it does not depend on what stands below. -/
theorem withoutToc_append_heading (h : isHeadingLine title = true) :
    withoutToc (front ++ title :: back) = withoutToc front ++ withoutToc (title :: back) := by
  rw [withoutToc, outsideBlocks_append_heading h (Nat.zero_le _), List.filter_append]
  rfl

/-- A start marker goes with all lines that its block reaches over. -/
theorem withoutToc_cons_start (h : isStartMarker line = true) (lines : Buffer) :
    withoutToc (line :: lines) = withoutToc (lines.drop (blockReach false lines)) := by
  rw [withoutToc, withoutToc, outsideBlocks, if_pos h, outsideBlocks_eq_drop]

theorem withoutToc_cons (hstart : isStartMarker line = false)
    (hend : isBareEndMarker line = false) :
    withoutToc (line :: lines) = line :: withoutToc lines := by
  simp [withoutToc, outsideBlocks, hstart, hend]

theorem withoutToc_append (hfront : ∀ line ∈ front, isStartMarker line = false)
    (hend : ∀ line ∈ front, isBareEndMarker line = false) :
    withoutToc (front ++ back) = front ++ withoutToc back := by
  induction front with
  | nil => rfl
  | cons line front ih =>
    rw [List.cons_append, withoutToc_cons (hfront line List.mem_cons_self)
      (hend line List.mem_cons_self), ih (fun l hl => hfront l (List.mem_cons_of_mem _ hl))
      fun l hl => hend l (List.mem_cons_of_mem _ hl)]
    rfl

theorem withoutToc_eq_self (hstart : ∀ line ∈ lines, isStartMarker line = false)
    (hend : ∀ line ∈ lines, isBareEndMarker line = false) : withoutToc lines = lines := by
  have happend : withoutToc (lines ++ []) = lines ++ withoutToc [] := withoutToc_append hstart hend
  rwa [List.append_nil, withoutToc_nil, List.append_nil] at happend

theorem isStartMarker_eq_false_of_mem_withoutToc (h : line ∈ withoutToc lines) :
    isStartMarker line = false :=
  isStartMarker_eq_false_of_mem_outsideBlocks (List.mem_of_mem_filter h)

theorem isBareEndMarker_eq_false_of_mem_withoutToc (h : line ∈ withoutToc lines) :
    isBareEndMarker line = false := by
  simpa using (List.mem_filter.mp h).2

/-- The headings that go are those that mention a start marker. -/
theorem outline_withoutToc (lines : Buffer) :
    outline (withoutToc lines) = outline (lines.filter (!isStartMarker ·)) := by
  rw [withoutToc, outline_filter, outline_outsideBlocks (by simp)]
  intro line _ hline
  by_contra hbare
  rw [isHeadingLine_eq_false_of_isBareEndMarker (by simpa using hbare)] at hline
  cases hline

theorem outline_withoutToc_eq_iff : outline (withoutToc lines) = outline lines ↔
    ∀ line ∈ lines, isHeadingLine line = true → isStartMarker line = false := by
  rw [outline_withoutToc, outline_filter_eq_iff]
  simp

/-! ### The spans of the stage -/

/-- How many lines after a line belong to the block that it opens. -/
def blockReach? (_ : Nat) (line : Line) (rest : List Line) : Option Nat :=
  if isStartMarker line then some (blockReach false rest) else none

theorem tocBlocksFrom_eq_scanSpans (inside index : Nat) (lines : Buffer) :
    tocBlocksFrom inside index lines = scanSpans blockReach? inside index lines := by
  induction lines generalizing inside index with
  | nil => rfl
  | cons line lines ih =>
    cases inside with
    | succ inside => exact ih _ _
    | zero =>
      rw [tocBlocksFrom, scanSpans, blockReach?]
      cases isStartMarker line with
      | true => exact congrArg (_ :: ·) (ih _ _)
      | false => exact ih _ _

theorem scanKept_blockReach? (inside index : Nat) (lines : Buffer) :
    scanKept blockReach? inside index lines = outsideBlocks inside lines := by
  induction lines generalizing inside index with
  | nil => rfl
  | cons line lines ih =>
    cases inside with
    | succ inside => exact ih _ _
    | zero =>
      rw [outsideBlocks, scanKept, blockReach?]
      cases isStartMarker line with
      | true => exact ih _ _
      | false => exact congrArg (line :: ·) (ih _ _)

theorem le_length_of_blockReach? {i reach : Nat} {rest : List Line}
    (h : blockReach? i line rest = some reach) : reach ≤ rest.length := by
  rw [blockReach?, Option.ite_none_right_eq_some, Option.some.injEq] at h
  rw [← h.2]
  exact blockReach_le_length _ _

theorem tidySpans_tocBlocks (lines : Buffer) : TidySpans (tocBlocks lines) lines.length := by
  rw [tocBlocks, tocBlocksFrom_eq_scanSpans]
  exact tidySpans_scanSpans fun _ _ _ _ => le_length_of_blockReach?

/-- What the blocks leave of a whole buffer. -/
theorem without_tocBlocks (lines : Buffer) :
    lines.without (tocBlocks lines) = outsideBlocks 0 lines := by
  rw [tocBlocks, tocBlocksFrom_eq_scanSpans, without_scanSpans, scanKept_blockReach?]

theorem single_contains {i : Nat} : (Span.single i).contains index = true ↔ i = index := by
  rw [Span.single, Span.contains_iff]
  constructor
  · rintro ⟨hle, hge⟩
    exact Nat.le_antisymm hle hge
  · rintro rfl
    exact ⟨Nat.le_refl _, Nat.le_refl _⟩

theorem mem_orphanEndMarkers {blocks : List Span} {span : Span} :
    span ∈ orphanEndMarkers lines blocks ↔ ∃ line index, lines[index]? = some line ∧
      isBareEndMarker line = true ∧ coversLine blocks index = false ∧ span = .single index := by
  simp only [orphanEndMarkers, List.mem_map, List.mem_filter, Prod.exists,
    List.mem_zipIdx_iff_getElem?, Bool.and_eq_true, Bool.not_eq_true', coversLine]
  constructor
  · rintro ⟨line, index, ⟨hline, hbare, hout⟩, rfl⟩
    exact ⟨line, index, hline, hbare, hout, rfl⟩
  · rintro ⟨line, index, hline, hbare, hout, rfl⟩
    exact ⟨line, index, ⟨hline, hbare, hout⟩, rfl⟩

/-- No end marker is an orphan exactly when every bare one lies in a block. -/
theorem orphanEndMarkers_eq_nil_iff {blocks : List Span} :
    orphanEndMarkers lines blocks = [] ↔ ∀ line index, lines[index]? = some line →
      isBareEndMarker line = true → ∃ block ∈ blocks, block.contains index = true := by
  rw [List.eq_nil_iff_forall_not_mem]
  constructor
  · intro h line index hline hbare
    by_contra hout
    refine h (.single index) (mem_orphanEndMarkers.mpr ⟨line, index, hline, hbare, ?_, rfl⟩)
    rw [coversLine, List.any_eq_false]
    exact fun block hblock hcontains => hout ⟨block, hblock, hcontains⟩
  · intro h span hspan
    obtain ⟨line, index, hline, hbare, hout, -⟩ := mem_orphanEndMarkers.mp hspan
    obtain ⟨block, hblock, hcontains⟩ := h line index hline hbare
    rw [coversLine, List.any_eq_false] at hout
    exact hout block hblock hcontains

theorem coversLine_tocSpans (lines : Buffer) (index : Nat) :
    coversLine (tocSpans lines) index =
      (coversLine (tocBlocks lines) index || lines[index]?.any isBareEndMarker) := by
  rw [tocSpans, coversLine_append]
  cases hblocks : coversLine (tocBlocks lines) index with
  | true => rfl
  | false =>
    rw [Bool.false_or, Bool.false_or, Bool.eq_iff_iff, coversLine, List.any_eq_true,
      Option.any_eq_true]
    constructor
    · rintro ⟨span, hspan, hcontains⟩
      obtain ⟨line, i, hline, hbare, -, rfl⟩ := mem_orphanEndMarkers.mp hspan
      obtain rfl := single_contains.mp hcontains
      exact ⟨line, hline, hbare⟩
    · rintro ⟨line, hline, hbare⟩
      exact ⟨.single index, mem_orphanEndMarkers.mpr ⟨line, index, hline, hbare, hblocks, rfl⟩,
        single_contains.mpr rfl⟩

/-- The spans of the stage are tidy. -/
theorem tidySpans_tocSpans (lines : Buffer) : TidySpans (tocSpans lines) lines.length := by
  have hblocks := tidySpans_tocBlocks lines
  refine ⟨List.pairwise_append.mpr ⟨hblocks.apart, ?_, ?_⟩, ?_, ?_⟩
  · -- Orphans stand at rising indices.
    have hrising : lines.zipIdx.Pairwise fun a b => a.2 < b.2 := by
      rw [← List.pairwise_map (f := Prod.snd) (R := (· < ·)), List.zipIdx_map_snd]
      exact List.pairwise_lt_range'
    rw [orphanEndMarkers, List.pairwise_map]
    refine (hrising.filter _).imp ?_
    intro a b hlt i hi
    have := single_contains.mp hi
    by_contra hother
    have := single_contains.mp (by simpa using hother)
    omega
  · -- An orphan lies in no block.
    intro span hspan other hother i hi
    obtain ⟨_, j, -, -, hout, rfl⟩ := mem_orphanEndMarkers.mp hother
    by_contra hsame
    obtain rfl := single_contains.mp (by simpa using hsame)
    rw [coversLine, List.any_eq_false] at hout
    exact hout span hspan hi
  · intro span hspan
    rcases List.mem_append.mp hspan with hspan | hspan
    · exact hblocks.ordered span hspan
    · obtain ⟨_, j, -, -, -, rfl⟩ := mem_orphanEndMarkers.mp hspan
      exact Nat.le_refl _
  · intro span hspan
    rcases List.mem_append.mp hspan with hspan | hspan
    · exact hblocks.bounded span hspan
    · obtain ⟨_, j, hline, -, -, rfl⟩ := mem_orphanEndMarkers.mp hspan
      exact (List.getElem?_eq_some_iff.mp hline).1

/-- Within any part of a buffer, the stage leaves what the blocks leave, less end markers. -/
theorem keptFrom_tocSpans (front middle back : Buffer) :
    keptFrom (tocSpans (front ++ middle ++ back)) front.length middle =
      (keptFrom (tocBlocks (front ++ middle ++ back)) front.length middle).filter
        (!isBareEndMarker ·) := by
  induction middle generalizing front with
  | nil => rfl
  | cons line middle ih =>
    have hsplit : front ++ line :: middle ++ back = (front ++ [line]) ++ middle ++ back := by
      simp
    have hline : (front ++ [line] ++ middle ++ back)[front.length]? = some line := by
      simp
    have hrest := ih (front ++ [line])
    rw [List.length_append, List.length_singleton] at hrest
    rw [hsplit, keptFrom, keptFrom, hrest, coversLine_tocSpans, hline, Option.any_some]
    cases coversLine (tocBlocks (front ++ [line] ++ middle ++ back)) front.length with
    | true => rfl
    | false =>
      cases hbare : isBareEndMarker line with
      | true =>
        simp only [Bool.or_true, if_true, Bool.false_eq_true, if_false]
        rw [List.filter_cons_of_neg (by simp [hbare])]
      | false =>
        simp only [Bool.or_false, Bool.false_eq_true, if_false]
        rw [List.filter_cons_of_pos (by simp [hbare])]

/-- What the stage leaves of a whole buffer. -/
theorem without_tocSpans (lines : Buffer) : lines.without (tocSpans lines) = withoutToc lines := by
  have hwhole := keptFrom_tocSpans [] lines []
  rw [List.nil_append, List.append_nil, List.length_nil] at hwhole
  rw [without_eq_keptFrom, hwhole, ← without_eq_keptFrom, without_tocBlocks]
  rfl

end Waymark
