import Waymark.Proofs.Contents
import Waymark.Proofs.TocEdits

/-!
# Splicing the table of contents in

Old blocks and end markers may stand anywhere, above the place of the table of contents, below
it, or across it. The stage takes the spans out, counts how many lines of them stood above the
place, and puts the new table in that much further up. Seen from the note as it was, this is
simpler: each line goes or stays where it is, and the table is spliced in between the lines above
the place and those from the place on. Of a block that runs across the place both parts go.

## Main definitions

* `isTocLine`, `spareLines` — the lines that go, and those that stay
* `IsTocInPlace` — there is nothing to do
* `splicedToc` — the stage, told line by line

## Main results

* `isTocCurrent_eq_true_iff` — when the stage does nothing
* `keptFrom_tocSpans_eq_spareLines` — the spans hold the lines that go
* `ensureToc_eq_splicedToc` — the stage splices the table in, and stays in range
-/

namespace Waymark

/-- Line `index` goes: it lies in a block, or it is a bare end marker. -/
def isTocLine (lines : Buffer) (index : Nat) : Bool :=
  (tocBlocks lines).any (·.contains index) || lines[index]?.any isBareEndMarker

/-- The lines of a part of the buffer that stay, in order. The first line of the part has the given
index in the buffer. -/
def spareLines (lines : Buffer) (index : Nat) (part : List Line) : List Line :=
  ((part.zipIdx index).filter fun (_, i) => !isTocLine lines i).map (·.1)

/-- There is one block, it starts at `place` and reads as the table of contents that would be put in
less the empty line below, and no bare end marker stands outside of it. -/
def IsTocInPlace (lines : Buffer) (place maxDepth : Nat) : Prop :=
  (tocBlocks lines).length = 1 ∧
    (∀ block ∈ tocBlocks lines, block.first = place ∧
      lines.linesOf block = (tocLines lines (effectiveDepth maxDepth)).dropLast) ∧
    ∀ index < lines.length, lines[index]?.any isBareEndMarker = true →
      ∃ block ∈ tocBlocks lines, block.contains index = true

instance (lines : Buffer) (place maxDepth : Nat) : Decidable (IsTocInPlace lines place maxDepth) :=
  inferInstanceAs (Decidable (_ ∧ _ ∧ _))

/-- The buffer with its table of contents spliced in before the line at `place`. What is left of a
table of contents on either side of the place goes, and a buffer that ends above the place is padded
with empty lines. Where no heading is to be listed no table is put in. -/
def splicedToc (lines : Buffer) (place maxDepth : Nat) : Buffer :=
  if ∃ head ∈ headings lines, 2 ≤ head.level ∧ head.level ≤ effectiveDepth maxDepth then
    if IsTocInPlace lines place maxDepth then lines
    else
      spareLines lines 0 (lines.take place) ++ List.replicate (place - lines.length) [] ++
        tocLines lines (effectiveDepth maxDepth) ++ spareLines lines place (lines.drop place)
  else spareLines lines 0 lines

variable {lines : Buffer} {place depth : Nat}

theorem hasSections_eq_true_iff {heads : List Heading} : hasSections heads depth = true ↔
    ∃ head ∈ heads, 2 ≤ head.level ∧ head.level ≤ depth := by
  simp [hasSections]

/-- The stage does nothing exactly when the table of contents is in its place. -/
theorem isTocCurrent_eq_true_iff :
    isTocCurrent lines place depth = true ↔ IsTocInPlace lines place depth := by
  have hfresh : (tocLines lines (effectiveDepth depth)).dropLast = tocListing lines depth := by
    rw [tocLines_effectiveDepth, tocLines, List.dropLast_concat]
  have hends {blocks : List Span} : orphanEndMarkers lines blocks = [] ↔
      ∀ index < lines.length, lines[index]?.any isBareEndMarker = true →
        ∃ block ∈ blocks, block.contains index = true := by
    rw [orphanEndMarkers_eq_nil_iff]
    constructor
    · intro h index _ hbare
      obtain ⟨line, hline, hbare⟩ := (Option.any_eq_true _ _).mp hbare
      exact h line index hline hbare
    · intro h line index hline hbare
      exact h index (List.getElem?_eq_some_iff.mp hline).1 (by rwa [hline])
  rw [isTocCurrent, IsTocInPlace, hfresh, ← hends]
  rcases tocBlocks lines with _ | ⟨block, _ | ⟨second, more⟩⟩
  · simp
  · simp only [Bool.and_eq_true, List.isEmpty_iff, beq_iff_eq, List.length_singleton,
      List.forall_mem_singleton, true_and]
    rw [and_assoc, and_comm]
  · simp

/-- The spans of the stage hold the lines that go. -/
theorem keptFrom_tocSpans_eq_spareLines (lines : Buffer) (index : Nat) (part : List Line) :
    keptFrom (tocSpans lines) index part = spareLines lines index part := by
  rw [← map_filter_zipIdx, spareLines]
  congr 2
  funext pair
  rw [coversLine_tocSpans]
  rfl

/-- The stage of the table of contents, in place as well as on the whole buffer, splices the new
table in before the line two below the anchor. -/
theorem ensureToc_eq_splicedToc (lines : Buffer) (anchor maxDepth : Nat) :
    ensureToc lines anchor maxDepth = splicedToc lines (anchor + 2) maxDepth ∧
      ensureToc? lines anchor maxDepth = some (splicedToc lines (anchor + 2) maxDepth) := by
  have hstage : ensureToc lines anchor maxDepth = splicedToc lines (anchor + 2) maxDepth := by
    simp only [splicedToc, ← hasSections_eq_true_iff, ← isTocCurrent_eq_true_iff]
    cases hlisted : hasSections (headings lines) (effectiveDepth maxDepth) with
    | false =>
      rw [ensureToc_of_not_hasSections hlisted, ← without_tocSpans, without_eq_keptFrom,
        keptFrom_tocSpans_eq_spareLines]
      rfl
    | true =>
      cases hcurrent : isTocCurrent lines (anchor + 2) maxDepth with
      | true => exact ensureToc_of_isTocCurrent hlisted hcurrent
      | false =>
        rw [ensureToc_of_not_isTocCurrent hlisted hcurrent, keptFrom_tocSpans_eq_spareLines,
          keptFrom_tocSpans_eq_spareLines, tocLines_effectiveDepth]
        rfl
  exact ⟨hstage, by rw [ensureToc?_eq, hstage]⟩

/-- Of a block across the place, the lines above it go as well as those below. -/
example : ensureToc ["%% MDNAV:TOC START %%".toList, "old".toList, "old".toList,
    "%% MDNAV:TOC END %%".toList, "## A".toList] 0 6 =
      tocLines ["## A".toList] 6 ++ ["## A".toList] := by decide +kernel

end Waymark
