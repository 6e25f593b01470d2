import Waymark.Proofs.Contents
import Waymark.Proofs.Edits

/-!
# Editing the table of contents in place

The stage of the table of contents finds blocks by two nested loops over line indices, sorts
all spans by their first lines, takes them out from the last to the first, and puts the new
table in at a place that it has computed before the spans went. None of its indices, ranges and
differences ever leaves the buffer.

## Main definitions

* `blockScan?`, `tocBlocksAt?` — the two loops that find the blocks
* `linesTakenAbove?` — how far a place moves up
* `ensureToc?` — the stage in place

## Main results

* `scanLoop_tocBlocksAt?` — the loops find the blocks of the buffer
* `removeSpans?_eq` — the spans of the stage are taken out in range
* `ensureToc?_eq` — the stage stays in range
-/

namespace Waymark

/-- The inner loop, behind a start marker: the index of the last end marker of the block, if there
is one, and the index where the loop stops. `last` is the last end marker met before `index`. -/
def blockScan? (lines : Buffer) (index : Nat) (last : Option Nat) : Option (Option Nat × Nat) :=
  if index < lines.length then
    match lines[index]? with
    | none => none
    | some line =>
      if isHeadingLine line then some (last, index)
      else if isEndMarker line then blockScan? lines (index + 1) (some index)
      else if isStartMarker line && last.isSome then some (last, index)
      else blockScan? lines (index + 1) last
  else some (last, index)
termination_by lines.length - index

theorem le_of_blockScan? {lines : Buffer} {index next : Nat} {last found : Option Nat}
    (h : blockScan? lines index last = some (found, next)) : index ≤ next := by
  induction index, last using blockScan?.induct lines with
  | case1 index last _ hread =>
    rw [blockScan?] at h
    simp_all
  | case2 index last _ line hread hheading =>
    rw [blockScan?] at h
    simp_all
  | case3 index last hlt line hread hheading hend ih =>
    rw [blockScan?, if_pos hlt, hread] at h
    simp only [if_neg hheading, if_pos hend] at h
    have := ih h
    omega
  | case4 index last _ line hread hheading hend hstart =>
    rw [blockScan?] at h
    simp_all
  | case5 index last hlt line hread hheading hend hstart ih =>
    rw [blockScan?, if_pos hlt, hread] at h
    simp only [if_neg hheading, if_neg hend, if_neg hstart] at h
    have := ih h
    omega
  | case6 index last hlt =>
    rw [blockScan?, if_neg hlt] at h
    simp_all

/-- The outer loop: the blocks at and behind `index`. Behind a start marker without an end marker
it goes on with the very next line. -/
def tocBlocksAt? (lines : Buffer) (index : Nat) : Option (List Span) :=
  if index < lines.length then
    match lines[index]? with
    | none => none
    | some line =>
      if isStartMarker line then
        match hscan : blockScan? lines (index + 1) none with
        | none => none
        | some (some last, next) => (tocBlocksAt? lines next).map (⟨index, last⟩ :: ·)
        | some (none, _) => (tocBlocksAt? lines (index + 1)).map (.single index :: ·)
      else tocBlocksAt? lines (index + 1)
  else some []
termination_by lines.length - index
decreasing_by
  · have := le_of_blockScan? hscan
    omega
  · omega
  · omega

/-- How many lines of the span lie above line `index`. -/
def Span.linesAbove? (span : Span) (index : Nat) : Option Nat :=
  if index ≤ span.first then some 0
  else do
    let last ← indexDiff? index 1
    return (← indexDiff? (min span.last last) span.first) + 1

/-- How many lines above `place` lie in one of the spans. -/
def linesTakenAbove? (spans : List Span) (place : Nat) : Option Nat :=
  spans.foldrM (fun span count => do return (← span.linesAbove? place) + count) 0

/-- The spans taken out of the buffer, the one with the highest first line first. -/
def removeSpans? (lines : Buffer) (spans : List Span) : Option Buffer :=
  lines.drainAll? (spans.mergeSort fun span later => later.first ≤ span.first)

/-- The line that links to a heading. Its indent is a difference of levels. -/
def tocEntry? (head : Heading) : Option Line := do
  let depth ← indexDiff? head.level 2
  return "> ".toList ++ List.replicate (2 * depth) ' ' ++ "- [[#".toList ++ head.text ++
    '|' :: head.text ++ "]]".toList

/-- The table of contents of a buffer and the empty line below it. -/
def tocLines? (lines : Buffer) (maxDepth : Nat) : Option (List Line) := do
  let depth := effectiveDepth maxDepth
  let entries ← ((headings lines).filter fun head =>
    2 ≤ head.level && head.level ≤ depth).mapM tocEntry?
  return startMarkerLines ++ [tocCaption] ++
    (if entries.isEmpty then [noEntriesLine] else entries) ++
    endMarkerLines ++ [[]]

/-- Whether the one block there is needs no change. Its lines are compared with all lines of the
new table but the last, and only if the block starts at `place`. -/
def isTocCurrent? (lines : Buffer) (blocks orphans : List Span) (place : Nat) (fresh : Buffer) :
    Option Bool :=
  match blocks with
  | [block] => do
    let listing ← fresh.upTo? (← indexDiff? fresh.length 1)
    if orphans.isEmpty && block.first == place then return (← lines.slice? block) == listing
    else return false
  | _ => some false

/-- The stage of the table of contents in place. -/
def ensureToc? (lines : Buffer) (anchor maxDepth : Nat) : Option Buffer := do
  let depth := effectiveDepth maxDepth
  let place := anchor + 2
  let blocks ← tocBlocksAt? lines 0
  let orphans := orphanEndMarkers lines blocks
  if !hasSections (headings lines) depth then removeSpans? lines (blocks ++ orphans)
  else
    let fresh ← tocLines? lines depth
    if ← isTocCurrent? lines blocks orphans place fresh then return lines
    else
      let shift ← linesTakenAbove? (blocks ++ orphans) place
      let kept ← removeSpans? lines (blocks ++ orphans)
      kept.insertAt? (← indexDiff? place shift) fresh

variable {lines front back rest : Buffer} {line : Line} {spans : List Span} {span : Span}
variable {index bound : Nat}

/-! ### Finding the blocks -/

theorem getElem?_length_append (front : Buffer) (line : Line) (rest : Buffer) :
    (front ++ line :: rest)[front.length]? = some line := by
  simp

/-- One line of the inner loop. -/
theorem blockScan?_of_getElem? (h : lines[index]? = some line) (last : Option Nat) :
    blockScan? lines index last =
      if isHeadingLine line then some (last, index)
      else if isEndMarker line then blockScan? lines (index + 1) (some index)
      else if isStartMarker line && last.isSome then some (last, index)
      else blockScan? lines (index + 1) last := by
  rw [blockScan?, if_pos (List.getElem?_eq_some_iff.mp h).1, h]

/-- The inner loop finds how far a block reaches. Behind the block it passes over lines that are no
start markers. -/
theorem blockScan?_append (front rest : Buffer) (last : Option Nat) :
    ∃ passed below, rest.drop (blockReach last.isSome rest) = passed ++ below ∧
      (last.isSome = true ∨ blockReach last.isSome rest ≠ 0 →
        ∀ line ∈ passed, isStartMarker line = false) ∧
      blockScan? (front ++ rest) front.length last =
        some (if blockReach last.isSome rest = 0 then last
            else some (front.length + blockReach last.isSome rest - 1),
          front.length + blockReach last.isSome rest + passed.length) := by
  induction rest generalizing front last with
  | nil =>
    refine ⟨[], [], rfl, by simp, ?_⟩
    rw [blockScan?, if_neg (by simp)]
    simp [blockReach]
  | cons line rest ih =>
    have hlater (last : Option Nat) := ih (front ++ [line]) last
    simp only [List.length_append, List.length_singleton, List.append_assoc,
      List.singleton_append] at hlater
    rw [blockScan?_of_getElem? (getElem?_length_append front line rest), blockReach]
    cases hheading : isHeadingLine line with
    | true => exact ⟨[], line :: rest, rfl, by simp, rfl⟩
    | false =>
      simp only [Bool.false_eq_true, if_false]
      cases hend : isEndMarker line with
      | true =>
        obtain ⟨passed, below, hdrop, hplain, hscan⟩ := hlater (some front.length)
        rw [Option.isSome_some] at hdrop hplain hscan
        have hlast : (if blockReach true rest = 0 then some front.length
            else some (front.length + 1 + blockReach true rest - 1)) =
              some (front.length + (blockReach true rest + 1) - 1) := by
          split
          · next hzero => rw [hzero, Nat.add_sub_assoc (Nat.le_refl 1)]; rfl
          · congr 1
            omega
        have hnext : front.length + 1 + blockReach true rest + passed.length =
            front.length + (blockReach true rest + 1) + passed.length := by
          omega
        refine ⟨passed, below, hdrop, fun _ => hplain (Or.inl rfl), ?_⟩
        rw [if_pos rfl, if_pos rfl, hscan, hlast, hnext]
        rfl
      | false =>
        simp only [Bool.false_eq_true, if_false]
        cases hstop : isStartMarker line && last.isSome with
        | true => exact ⟨[], line :: rest, rfl, by simp, rfl⟩
        | false =>
          simp only [Bool.false_eq_true, if_false]
          obtain ⟨passed, below, hdrop, hplain, hscan⟩ := hlater last
          rw [hscan]
          cases hreach : blockReach last.isSome rest with
          | zero =>
            -- No end marker follows, so the line itself is passed over as well.
            rw [hreach] at hdrop hplain
            refine ⟨line :: passed, below, congrArg (line :: ·) hdrop, ?_, ?_⟩
            · rintro (hlast | habsurd)
              · rw [hlast, Bool.and_true] at hstop
                exact List.forall_mem_cons.mpr ⟨hstop, hplain (Or.inl hlast)⟩
              · cases habsurd rfl
            · simp only [if_true, List.length_cons, Option.some.injEq, Prod.mk.injEq, true_and]
              omega
          | succ reach =>
            rw [hreach] at hdrop hplain
            refine ⟨passed, below, hdrop, fun _ => hplain (Or.inr (Nat.succ_ne_zero _)), ?_⟩
            simp only [Nat.add_one_ne_zero, if_false, Option.some.injEq, Prod.mk.injEq]
            omega

/-- One start marker in the outer loop. -/
theorem tocBlocksAt?_of_blockScan? {found : Option Nat} {next : Nat}
    (hread : lines[index]? = some line) (hstart : isStartMarker line = true)
    (hscan : blockScan? lines (index + 1) none = some (found, next)) :
    tocBlocksAt? lines index =
      found.elim ((tocBlocksAt? lines (index + 1)).map (.single index :: ·))
      fun last => (tocBlocksAt? lines next).map (⟨index, last⟩ :: ·) := by
  rw [tocBlocksAt?, if_pos (List.getElem?_eq_some_iff.mp hread).1, hread]
  simp only [hstart, if_true]
  split
  · next hnone =>
    rw [hscan] at hnone
    cases hnone
  · next hsome =>
    rw [hscan, Option.some.injEq, Prod.mk.injEq] at hsome
    obtain ⟨rfl, rfl⟩ := hsome
    rfl
  · next hsome =>
    rw [hscan, Option.some.injEq, Prod.mk.injEq] at hsome
    obtain ⟨rfl, rfl⟩ := hsome
    rfl

/-- Any other line in the outer loop. -/
theorem tocBlocksAt?_of_not_start (hread : lines[index]? = some line)
    (hstart : isStartMarker line = false) :
    tocBlocksAt? lines index = tocBlocksAt? lines (index + 1) := by
  rw [tocBlocksAt?, if_pos (List.getElem?_eq_some_iff.mp hread).1, hread]
  simp only [hstart, Bool.false_eq_true, if_false]

/-- A start marker opens the block that reaches furthest, and the outer loop goes on behind the
lines that the inner one has passed over. -/
theorem tocBlocksAt?_of_start (front rest : Buffer) (hstart : isStartMarker line = true) :
    ∃ passed below, rest.drop (blockReach false rest) = passed ++ below ∧
      (∀ line ∈ passed, isStartMarker line = false) ∧
      tocBlocksAt? (front ++ line :: rest) front.length =
        (tocBlocksAt? (front ++ line :: rest)
          (front.length + 1 + blockReach false rest + passed.length)).map
            (⟨front.length, front.length + blockReach false rest⟩ :: ·) := by
  obtain ⟨passed, below, hdrop, hplain, hscan⟩ := blockScan?_append (front ++ [line]) rest none
  rw [Option.isSome_none] at hdrop hplain
  rw [List.length_append, List.length_singleton, List.append_assoc, List.singleton_append,
    Option.isSome_none] at hscan
  rw [tocBlocksAt?_of_blockScan? (getElem?_length_append front line rest) hstart hscan]
  by_cases hzero : blockReach false rest = 0
  · -- The block is the start marker alone, and the loop takes back what was passed over.
    refine ⟨[], rest, by rw [hzero]; rfl, by simp, ?_⟩
    rw [hzero]
    rfl
  · have hlast : front.length + 1 + blockReach false rest - 1 =
        front.length + blockReach false rest := by
      omega
    refine ⟨passed, below, hdrop, hplain (Or.inr hzero), ?_⟩
    rw [if_neg hzero, Option.elim_some, hlast]

/-- The outer loop finds the blocks of the buffer. -/
theorem scanLoop_tocBlocksAt? (lines : Buffer) :
    ScanLoop blockReach? (tocBlocksAt? lines) lines where
  atEnd := by rw [tocBlocksAt?, if_neg (Nat.lt_irrefl _)]
  stays := by
    rintro front line rest rfl hreach
    exact tocBlocksAt?_of_not_start (getElem?_length_append front line rest)
      (by simpa [blockReach?] using hreach)
  takes := by
    rintro front line rest reach rfl hreach
    refine ⟨le_length_of_blockReach? hreach, ?_⟩
    rw [blockReach?, Option.ite_none_right_eq_some, Option.some.injEq] at hreach
    obtain ⟨hstart, rfl⟩ := hreach
    obtain ⟨passed, below, hdrop, hplain, hloop⟩ := tocBlocksAt?_of_start front rest hstart
    refine ⟨passed, below, hdrop, fun index => ?_, hloop⟩
    rw [← tocBlocksFrom_eq_scanSpans, ← tocBlocksFrom_eq_scanSpans]
    exact tocBlocksFrom_append_quiet hplain

theorem tocBlocksAt?_zero (lines : Buffer) : tocBlocksAt? lines 0 = some (tocBlocks lines) := by
  rw [tocBlocks, tocBlocksFrom_eq_scanSpans]
  exact (scanLoop_tocBlocksAt? lines).eq_scanSpans [] lines rfl

/-! ### Places and spans -/

theorem Span.linesAbove?_eq (h : span.first ≤ span.last) (index : Nat) :
    span.linesAbove? index = some (span.linesAbove index) := by
  rw [Span.linesAbove?, Span.linesAbove]
  split
  · rfl
  · next hbelow =>
    rw [indexDiff?_eq (by omega)]
    simp only [Option.bind_eq_bind, Option.bind_some]
    rw [indexDiff?_eq (by omega)]
    rfl

theorem linesTakenAbove?_eq (h : ∀ span ∈ spans, span.first ≤ span.last) (place : Nat) :
    linesTakenAbove? spans place = some (linesTakenAbove spans place) := by
  induction spans with
  | nil => rfl
  | cons span spans ih =>
    obtain ⟨hspan, hspans⟩ := List.forall_mem_cons.mp h
    have hrest := ih hspans
    rw [linesTakenAbove?] at hrest
    rw [linesTakenAbove?, List.foldrM_cons, hrest]
    simp only [Option.bind_eq_bind, Option.bind_some, Span.linesAbove?_eq hspan]
    rfl

/-- A place moves up by at most as many lines as stand above it. -/
theorem linesTakenAbove_le (h : TidySpans spans bound) (place : Nat) :
    linesTakenAbove spans place ≤ place := by
  rw [linesTakenAbove_eq_countP h]
  exact Nat.le_trans List.countP_le_length (Nat.le_of_eq List.length_range)

/-- Tidy spans can be taken out once they are sorted. -/
theorem removeSpans?_eq (h : TidySpans spans lines.length) :
    removeSpans? lines spans = some (lines.without spans) := by
  have hperm := List.mergeSort_perm spans fun span later => later.first ≤ span.first
  have hsorted : (spans.mergeSort fun span later => later.first ≤ span.first).Pairwise
      fun span later => later.first ≤ span.first := by
    refine (List.pairwise_mergeSort ?_ ?_ spans).imp fun hle => of_decide_eq_true hle
    · intro a b c hab hbc
      simp only [decide_eq_true_eq] at *
      omega
    · intro a b
      simp only [Bool.or_eq_true, decide_eq_true_eq]
      omega
  rw [removeSpans?, drainAll?_eq (h.perm hperm.symm) hsorted, without_perm hperm]

/-! ### The new table -/

theorem mapM_tocEntry? {heads : List Heading} (h : ∀ head ∈ heads, 2 ≤ head.level) :
    heads.mapM tocEntry? = some (heads.map tocEntry) := by
  induction heads with
  | nil => rfl
  | cons head heads ih =>
    obtain ⟨hhead, hheads⟩ := List.forall_mem_cons.mp h
    rw [List.mapM_cons, ih hheads, tocEntry?, indexDiff?_eq hhead]
    rfl

theorem tocLines?_eq (lines : Buffer) (maxDepth : Nat) :
    tocLines? lines maxDepth = some (tocLines lines maxDepth) := by
  have hdeep : ∀ head ∈ (headings lines).filter fun head =>
      2 ≤ head.level && head.level ≤ effectiveDepth maxDepth, 2 ≤ head.level := by
    intro head hhead
    have hboth := (List.mem_filter.mp hhead).2
    rw [Bool.and_eq_true, decide_eq_true_eq] at hboth
    exact hboth.1
  simp only [tocLines?, mapM_tocEntry? hdeep]
  rfl

theorem tocLines_effectiveDepth (lines : Buffer) (maxDepth : Nat) :
    tocLines lines (effectiveDepth maxDepth) = tocLines lines maxDepth := by
  rw [tocLines, tocLines, tocListing, tocListing, effectiveDepth_effectiveDepth]

/-- The comparison reads the lines of the only block, which lie in the buffer. -/
theorem isTocCurrent?_eq (lines : Buffer) (place maxDepth : Nat) :
    isTocCurrent? lines (tocBlocks lines) (orphanEndMarkers lines (tocBlocks lines)) place
        (tocLines lines maxDepth) = some (isTocCurrent lines place maxDepth) := by
  have htidy := tidySpans_tocBlocks lines
  rw [isTocCurrent]
  generalize tocBlocks lines = blocks at htidy
  -- Only a single block can be current.
  rcases blocks with _ | ⟨block, _ | ⟨second, more⟩⟩
  · rfl
  · have hlength : 1 ≤ (tocLines lines maxDepth).length := by simp [tocLines]
    have hlisting : (tocLines lines maxDepth).take ((tocLines lines maxDepth).length - 1) =
        tocListing lines maxDepth := by
      rw [tocLines, List.length_append, List.length_singleton, Nat.add_sub_cancel, List.take_left]
    have hblock : lines.slice? block = some (lines.linesOf block) :=
      slice?_eq (htidy.ordered block (by simp)) (htidy.bounded block (by simp))
    rw [isTocCurrent?, indexDiff?_eq hlength]
    simp only [Option.bind_eq_bind, Option.bind_some, upTo?_eq (Nat.sub_le _ _), hlisting, hblock]
    cases (orphanEndMarkers lines [block]).isEmpty && block.first == place <;> rfl
  · rfl

/-- The stage of the table of contents stays in range. -/
theorem ensureToc?_eq (lines : Buffer) (anchor maxDepth : Nat) :
    ensureToc? lines anchor maxDepth = some (ensureToc lines anchor maxDepth) := by
  have htidy :
      TidySpans (tocBlocks lines ++ orphanEndMarkers lines (tocBlocks lines)) lines.length :=
    tidySpans_tocSpans lines
  rw [ensureToc?, ensureToc, tocBlocksAt?_zero]
  simp only [Option.bind_eq_bind, Option.bind_some, tocLines?_eq, tocLines_effectiveDepth,
    isTocCurrent?_eq, linesTakenAbove?_eq htidy.ordered, removeSpans?_eq htidy,
    indexDiff?_eq (linesTakenAbove_le htidy _), insertAt?_eq, tocSpans]
  split
  · rfl
  · split <;> rfl

end Waymark
