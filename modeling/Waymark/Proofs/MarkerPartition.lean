import Mathlib.Data.List.Pairwise
import Mathlib.Data.List.Sort
import Waymark.Proofs.TocEdits

/-!
# Blocks partition the markers

Start markers, end markers and headings may follow one another in any order, and one line may
be two of these at once. Blocks are found all the same in one way only: they stand apart from
the first to the last, each start marker lies in one of them, and a start marker opens its block
unless it lies below the first line of another one. How far a block runs depends on the lines
below its first one alone. It has a limit, which is the next heading, or the next start marker
behind an end marker, or the end of the buffer, and it runs through the last end marker above
that limit.

These facts leave no choice. Two lists of spans for which they hold are equal, so they say
exactly what the two loops of the search find.

## Main definitions

* `StopsBlock`, `IsBlockLimit` — the line that a block cannot reach over
* `RunsTo`, `IsBlock` — a span from a start marker to the last end marker above the limit
* `PartitionsMarkers` — spans that are blocks and hold every start marker once

## Main results

* `exists_reaches` — a block reaches through the last end marker above its limit
* `partitionsMarkers_tocBlocks` — the blocks that are found
* `PartitionsMarkers.unique` — no other spans will do
* `partitionsMarkers_iff` — the search ends, and its blocks are the ones that partition the markers
-/

namespace Waymark

/-- A block that opens at line `first` cannot reach over line `index`, for there is no such line,
or it is a heading, or it is a start marker that is no end marker and stands below an end marker of
the block. -/
def StopsBlock (lines : Buffer) (first index : Nat) : Prop :=
  lines.length ≤ index ∨ lines[index]?.any isHeadingLine = true ∨
    (lines[index]?.any isStartMarker = true ∧ lines[index]?.any isEndMarker = false ∧
      ∃ i, first < i ∧ i < index ∧ lines[i]?.any isEndMarker = true)

/-- Line `limit` is the first one below line `first` that a block cannot reach over. -/
structure IsBlockLimit (lines : Buffer) (first limit : Nat) : Prop where
  /-- The limit stands below the first line of the block. -/
  below : first < limit
  /-- The block cannot reach over its limit. -/
  stops : StopsBlock lines first limit
  /-- It can reach over the lines above. -/
  passes : ∀ i, first < i → i < limit → ¬StopsBlock lines first i

/-- The block runs through the last end marker above its limit, or it is one line. -/
structure RunsTo (lines : Buffer) (block : Span) (limit : Nat) : Prop where
  /-- The limit of the block. -/
  isLimit : IsBlockLimit lines block.first limit
  /-- The block ends above its limit. -/
  last_lt : block.last < limit
  /-- A block of several lines ends at an end marker. -/
  closes : block.first < block.last → lines[block.last]?.any isEndMarker = true
  /-- No end marker stands between the block and its limit. -/
  behind : ∀ i, block.last < i → i < limit → lines[i]?.any isEndMarker = false
  /-- The block is one line exactly when no end marker stands between that line and the limit. -/
  single : block.first = block.last ↔
    ∀ i, block.first < i → i < limit → lines[i]?.any isEndMarker = false

/-- The span is a block of the buffer. -/
structure IsBlock (lines : Buffer) (block : Span) : Prop where
  /-- The block opens at a start marker. -/
  opens : lines[block.first]?.any isStartMarker = true
  /-- No line of the block is a heading, unless it is the first one. -/
  noHeading : ∀ i, block.first < i → i ≤ block.last → lines[i]?.any isHeadingLine = false
  /-- Where the block ends. -/
  runs : ∃ limit, RunsTo lines block limit

/-- The spans are blocks from the first to the last, and hold every start marker once. -/
structure PartitionsMarkers (lines : Buffer) (blocks : List Span) : Prop where
  /-- The blocks have lines, lie in the buffer, and share no line. -/
  tidy : TidySpans blocks lines.length
  /-- Each block ends before the next one. -/
  ascending : blocks.Pairwise fun block later => block.last < later.first
  /-- Each of them is a block. -/
  isBlock : ∀ block ∈ blocks, IsBlock lines block
  /-- Each start marker lies in one block. -/
  covers :
    ∀ i, lines[i]?.any isStartMarker = true → ∃! block, block ∈ blocks ∧ block.contains i = true
  /-- None is left when the blocks are taken out. -/
  clears : ∀ line ∈ lines.without blocks, isStartMarker line = false

variable {lines rest : Buffer} {line : Line} {spans blocks blocks' : List Span} {block other : Span}
variable {first index reach limit limit' : Nat} {closed : Bool}

/-! ### The limit of a block -/

theorem IsBlockLimit.unique (h : IsBlockLimit lines first limit)
    (h' : IsBlockLimit lines first limit') : limit = limit' := by
  rcases Nat.lt_trichotomy limit limit' with hlt | heq | hgt
  · exact absurd h.stops (h'.passes limit h.below hlt)
  · exact heq
  · exact absurd h'.stops (h.passes limit' h'.below hgt)

/-- What is known of a block behind the lines above `index`: how many of the lines from there on it
still has, and where its limit is. -/
structure Reaches (lines : Buffer) (first index reach limit : Nat) : Prop where
  /-- The block ends above its limit. -/
  le_limit : index + reach ≤ limit
  /-- The block cannot reach over its limit. -/
  stops : StopsBlock lines first limit
  /-- It can reach over the lines above. -/
  passes : ∀ i, index ≤ i → i < limit → ¬StopsBlock lines first i
  /-- No end marker stands between the block and its limit. -/
  behind : ∀ i, index + reach ≤ i → i < limit → lines[i]?.any isEndMarker = false
  /-- If the block goes on, it goes on to an end marker. -/
  closes : 0 < reach → lines[index + reach - 1]?.any isEndMarker = true

/-- The block ends here, for it cannot reach over the next line. -/
theorem reaches_of_stops (h : StopsBlock lines first index) :
    Reaches lines first index 0 index where
  le_limit := Nat.le_refl _
  stops := h
  passes _ hle hlt := absurd hlt (Nat.not_lt_of_le hle)
  behind _ hle hlt := absurd hlt (Nat.not_lt_of_le hle)
  closes h := absurd h (Nat.lt_irrefl 0)

/-- An end marker belongs to the block, and so does what the block reaches over below. -/
theorem Reaches.of_end (h : Reaches lines first (index + 1) reach limit)
    (hpasses : ¬StopsBlock lines first index) (hend : lines[index]?.any isEndMarker = true) :
    Reaches lines first index (reach + 1) limit where
  le_limit := by
    have := h.le_limit
    omega
  stops := h.stops
  passes i hle hlt := by
    rcases Nat.eq_or_lt_of_le hle with rfl | hbelow
    · exact hpasses
    · exact h.passes i hbelow hlt
  behind i hle hlt := h.behind i (by omega) hlt
  closes _ := by
    rcases Nat.eq_zero_or_pos reach with rfl | hpos
    · exact hend
    · have hclose := h.closes hpos
      rwa [Nat.add_right_comm] at hclose

/-- Any other line belongs to the block if the block goes on below it. -/
theorem Reaches.of_plain (h : Reaches lines first (index + 1) reach limit)
    (hpasses : ¬StopsBlock lines first index) (hend : lines[index]?.any isEndMarker = false) :
    Reaches lines first index (if reach = 0 then 0 else reach + 1) limit where
  le_limit := by
    have := h.le_limit
    split <;> omega
  stops := h.stops
  passes i hle hlt := by
    rcases Nat.eq_or_lt_of_le hle with rfl | hbelow
    · exact hpasses
    · exact h.passes i hbelow hlt
  behind i hle hlt := by
    split at hle
    · next hzero =>
      rcases Nat.eq_or_lt_of_le hle with rfl | hbelow
      · exact hend
      · exact h.behind i (by omega) hlt
    · exact h.behind i (by omega) hlt
  closes hpos := by
    split at hpos
    · exact absurd hpos (Nat.lt_irrefl 0)
    · next hne =>
      have hclose := h.closes (Nat.pos_of_ne_zero hne)
      rwa [if_neg hne, ← Nat.add_assoc, Nat.add_right_comm]

/-- Whether a block can reach over a line, if it is known whether an end marker stands above. -/
theorem stopsBlock_iff (hline : lines[index]? = some line) (hclosed : closed = true ↔
      ∃ i, first < i ∧ i < index ∧ lines[i]?.any isEndMarker = true) :
    StopsBlock lines first index ↔ isHeadingLine line = true ∨
      (isStartMarker line = true ∧ isEndMarker line = false ∧ closed = true) := by
  have hlt : index < lines.length := (List.getElem?_eq_some_iff.mp hline).1
  simp only [StopsBlock, hline, Option.any_some, Nat.not_le_of_lt hlt, false_or, hclosed]

/-- Whether an end marker stands above the next line. -/
theorem closed_or_iff (hline : lines[index]? = some line) (hfirst : first < index)
    (hclosed : closed = true ↔ ∃ i, first < i ∧ i < index ∧ lines[i]?.any isEndMarker = true) :
    (closed || isEndMarker line) = true ↔
      ∃ i, first < i ∧ i < index + 1 ∧ lines[i]?.any isEndMarker = true := by
  rw [Bool.or_eq_true, hclosed]
  constructor
  · rintro (⟨i, hlow, hhigh, hend⟩ | hend)
    · exact ⟨i, hlow, Nat.lt_succ_of_lt hhigh, hend⟩
    · exact ⟨index, hfirst, Nat.lt_succ_self index, by rwa [hline]⟩
  · rintro ⟨i, hlow, hhigh, hend⟩
    rcases Nat.lt_or_eq_of_le (Nat.le_of_lt_succ hhigh) with habove | rfl
    · exact Or.inl ⟨i, hlow, habove, hend⟩
    · rw [hline] at hend
      exact Or.inr hend

/-- Behind the lines above `index`, a block reaches through the last end marker above its limit. -/
theorem exists_reaches (hrest : lines.drop index = rest) (hfirst : first < index)
    (hclosed : closed = true ↔ ∃ i, first < i ∧ i < index ∧ lines[i]?.any isEndMarker = true) :
    ∃ limit, Reaches lines first index (blockReach closed rest) limit := by
  induction rest generalizing index closed with
  | nil => exact ⟨index, reaches_of_stops (Or.inl (List.drop_eq_nil_iff.mp hrest))⟩
  | cons line rest ih =>
    have hline : lines[index]? = some line := by
      rw [← List.head?_drop, hrest, List.head?_cons]
    have hbelow : lines.drop (index + 1) = rest := by
      rw [← List.drop_drop, hrest, List.drop_one, List.tail_cons]
    have hstops := stopsBlock_iff hline hclosed
    obtain ⟨limit, hreach⟩ :=
      ih hbelow (Nat.lt_succ_of_lt hfirst) (closed_or_iff hline hfirst hclosed)
    -- The cases are the tests of `blockReach` on its first line.
    rw [blockReach]
    split
    · next hheading => exact ⟨index, reaches_of_stops (hstops.mpr (Or.inl hheading))⟩
    · next hheading =>
      split
      · next hend =>
        have hpasses : ¬StopsBlock lines first index := by simp [hstops, hheading, hend]
        rw [hend, Bool.or_true] at hreach
        exact ⟨limit, hreach.of_end hpasses (by rwa [hline])⟩
      · next hend =>
        have hend : isEndMarker line = false := by simpa using hend
        split
        · next hstart =>
          obtain ⟨hstart, hclosed⟩ := Bool.and_eq_true_iff.mp hstart
          exact ⟨index, reaches_of_stops (hstops.mpr (Or.inr ⟨hstart, hend, hclosed⟩))⟩
        · next hstart =>
          have hpasses : ¬StopsBlock lines first index := by
            simp only [hstops, hheading, hend, Bool.false_eq_true, false_or, true_and]
            simpa using hstart
          rw [hend, Bool.or_false] at hreach
          have hplain := hreach.of_plain hpasses (by rwa [hline])
          refine ⟨limit, ?_⟩
          cases hcount : blockReach closed rest with
          | zero => simpa [hcount] using hplain
          | succ reach => simpa [hcount] using hplain

theorem Reaches.runsTo (h : Reaches lines first (first + 1) reach limit) :
    RunsTo lines ⟨first, first + reach⟩ limit := by
  have hle := h.le_limit
  have hclose : 0 < reach → lines[first + reach]?.any isEndMarker = true := by
    intro hpos
    have := h.closes hpos
    rwa [Nat.add_right_comm, Nat.add_sub_cancel] at this
  refine ⟨⟨by dsimp only; omega, h.stops, h.passes⟩, by dsimp only; omega, ?_, ?_, ?_⟩
  · intro hlt
    exact hclose (by dsimp only at hlt; omega)
  · intro i hbelow hlt
    exact h.behind i (by dsimp only at hbelow; omega) hlt
  · constructor
    · intro hone i hbelow hlt
      exact h.behind i (by dsimp only at hone hbelow; omega) hlt
    · intro hnone
      -- If the block went on, it would go on to an end marker.
      by_contra hmore
      dsimp only at hnone hmore
      have hpos : 0 < reach := by omega
      have hend := hnone (first + reach) (by omega) (by omega)
      rw [hclose hpos] at hend
      cases hend

theorem RunsTo.noHeading (h : RunsTo lines block limit) {i : Nat} (hfirst : block.first < i)
    (hlast : i ≤ block.last) : lines[i]?.any isHeadingLine = false := by
  have hpasses := h.isLimit.passes i hfirst (Nat.lt_of_le_of_lt hlast h.last_lt)
  rw [StopsBlock, not_or, not_or, Bool.not_eq_true] at hpasses
  exact hpasses.2.1

/-- The block that opens at a start marker. -/
theorem isBlock_blockReach (hrest : lines.drop first = line :: rest)
    (hstart : isStartMarker line = true) :
    IsBlock lines ⟨first, first + blockReach false rest⟩ := by
  have hline : lines[first]? = some line := by
    rw [← List.head?_drop, hrest, List.head?_cons]
  have hbelow : lines.drop (first + 1) = rest := by
    rw [← List.drop_drop, hrest, List.drop_one, List.tail_cons]
  have hopen : false = true ↔
      ∃ i, first < i ∧ i < first + 1 ∧ lines[i]?.any isEndMarker = true := by
    refine ⟨fun h => absurd h Bool.false_ne_true, ?_⟩
    rintro ⟨i, hlow, hhigh, -⟩
    omega
  obtain ⟨limit, hreach⟩ := exists_reaches hbelow (Nat.lt_succ_self first) hopen
  refine ⟨by rwa [hline], fun i hlow hhigh => hreach.runsTo.noHeading hlow hhigh, limit,
    hreach.runsTo⟩

/-! ### The blocks of a buffer -/

theorem isBlock_of_mem_tocBlocks (h : block ∈ tocBlocks lines) : IsBlock lines block := by
  rw [tocBlocks, tocBlocksFrom_eq_scanSpans] at h
  obtain ⟨front, line, rest, reach, rfl, -, hreach, rfl⟩ := exists_of_mem_scanSpans h
  rw [blockReach?, Option.ite_none_right_eq_some, Option.some.injEq] at hreach
  obtain ⟨hstart, rfl⟩ := hreach
  rw [Nat.zero_add]
  exact isBlock_blockReach List.drop_left hstart

/-- Spans that lie apart and start from the first to the last end before one another. -/
theorem TidySpans.ascending {bound : Nat} (h : TidySpans spans bound)
    (hfirst : spans.Pairwise fun span later => span.first ≤ later.first) :
    spans.Pairwise fun span later => span.last < later.first :=
  (h.apart.and hfirst).imp_of_mem fun _ hlater hboth =>
    hboth.1.last_lt hboth.2 (h.ordered _ hlater)

theorem TidySpans.eq_of_contains {bound : Nat} (h : TidySpans spans bound) (hblock : block ∈ spans)
    (hother : other ∈ spans) (hin : block.contains index = true)
    (hin' : other.contains index = true) : block = other := by
  have : Std.Symm Span.Apart := ⟨fun _ _ => Span.Apart.symm⟩
  by_contra hne
  rw [h.apart.forall hblock hother hne index hin] at hin'
  cases hin'

/-- The blocks that the search finds partition the markers. -/
theorem partitionsMarkers_tocBlocks (lines : Buffer) :
    PartitionsMarkers lines (tocBlocks lines) := by
  have htidy := tidySpans_tocBlocks lines
  have hclears : ∀ line ∈ lines.without (tocBlocks lines), isStartMarker line = false := by
    rw [without_tocBlocks]
    exact fun line => isStartMarker_eq_false_of_mem_outsideBlocks
  have hfirst : (tocBlocks lines).Pairwise fun block later => block.first ≤ later.first := by
    rw [tocBlocks, tocBlocksFrom_eq_scanSpans]
    exact pairwise_first_scanSpans blockReach? 0 0 lines
  refine ⟨htidy, htidy.ascending hfirst, fun block => isBlock_of_mem_tocBlocks, ?_, hclears⟩
  intro i hstart
  obtain ⟨line, hline, hstart⟩ := (Option.any_eq_true _ _).mp hstart
  have hcovered : coversLine (tocBlocks lines) i = true := by
    by_contra hout
    rw [hclears line (mem_without_of_getElem? hline (by simpa using hout))] at hstart
    cases hstart
  obtain ⟨block, hblock, hin⟩ := List.any_eq_true.mp hcovered
  exact ⟨block, ⟨hblock, hin⟩, fun other hother =>
    htidy.eq_of_contains hother.1 hblock hother.2 hin⟩

/-! ### No other spans -/

theorem RunsTo.last_le (h : RunsTo lines block limit) (h' : RunsTo lines other limit')
    (hfirst : block.first = other.first) (hother : other.first ≤ other.last) :
    block.last ≤ other.last := by
  obtain rfl := h.isLimit.unique (hfirst ▸ h'.isLimit)
  by_contra hlonger
  have hend := h.closes (by omega)
  rw [h'.behind block.last (Nat.lt_of_not_le hlonger) h.last_lt] at hend
  cases hend

/-- A block is told by its first line. -/
theorem IsBlock.eq_of_first (h : IsBlock lines block) (h' : IsBlock lines other)
    (hblock : block.first ≤ block.last) (hother : other.first ≤ other.last)
    (hfirst : block.first = other.first) : block = other := by
  obtain ⟨limit, hruns⟩ := h.runs
  obtain ⟨limit', hruns'⟩ := h'.runs
  have hlast : block.last = other.last :=
    Nat.le_antisymm (hruns.last_le hruns' hfirst hother) (hruns'.last_le hruns hfirst.symm hblock)
  cases block
  cases other
  exact congrArg₂ Span.mk hfirst hlast

/-- Every block of one partition belongs to the other. -/
theorem PartitionsMarkers.subset (h : PartitionsMarkers lines blocks)
    (h' : PartitionsMarkers lines blocks') : blocks ⊆ blocks' := by
  intro block hblock
  induction hcount : block.first using Nat.strong_induction_on generalizing block with
  | _ count ih =>
    subst hcount
    have hopens := (h.isBlock block hblock).opens
    obtain ⟨other, ⟨hother, hin⟩, -⟩ := h'.covers block.first hopens
    have hordered := h.tidy.ordered block hblock
    have hordered' := h'.tidy.ordered other hother
    rcases Nat.lt_or_ge other.first block.first with habove | hbelow
    · -- The other block opens further up, in a block that both partitions have.
      obtain ⟨earlier, ⟨hearlier, hholds⟩, -⟩ :=
        h.covers other.first (h'.isBlock other hother).opens
      have hle := (Span.contains_iff.mp hholds).1
      have hshared := ih earlier.first (Nat.lt_of_le_of_lt hle habove) hearlier rfl
      obtain rfl := h'.tidy.eq_of_contains hshared hother hholds (Span.contains_first hordered')
      obtain rfl := h.tidy.eq_of_contains hblock hearlier (Span.contains_first hordered) hin
      exact absurd habove (Nat.lt_irrefl _)
    · have hfirst := Nat.le_antisymm hbelow (Span.contains_iff.mp hin).1
      rwa [(h.isBlock block hblock).eq_of_first (h'.isBlock other hother) hordered hordered' hfirst]

theorem PartitionsMarkers.pairwise_first (h : PartitionsMarkers lines blocks) :
    blocks.Pairwise fun block later => block.first < later.first :=
  h.ascending.imp_of_mem fun hblock _ hlt => Nat.lt_of_le_of_lt (h.tidy.ordered _ hblock) hlt

theorem PartitionsMarkers.unique (h : PartitionsMarkers lines blocks)
    (h' : PartitionsMarkers lines blocks') : blocks = blocks' := by
  have : Std.Irrefl fun block later : Span => block.first < later.first :=
    ⟨fun _ => Nat.lt_irrefl _⟩
  have : Std.Antisymm fun block later : Span => block.first < later.first :=
    ⟨fun _ _ hlt hgt => absurd hlt (Nat.lt_asymm hgt)⟩
  exact h.pairwise_first.eq_of_mem_iff h'.pairwise_first fun _ => ⟨(h.subset h' ·), (h'.subset h ·)⟩

/-- The search for blocks comes to its end, and what it finds are the only spans that partition the
markers of the buffer. -/
theorem partitionsMarkers_iff (lines : Buffer) :
    tocBlocksAt? lines 0 = some (tocBlocks lines) ∧
      ∀ blocks, PartitionsMarkers lines blocks ↔ blocks = tocBlocks lines := by
  refine ⟨tocBlocksAt?_zero lines, fun blocks => ⟨fun h => ?_, ?_⟩⟩
  · exact h.unique (partitionsMarkers_tocBlocks lines)
  · rintro rfl
    exact partitionsMarkers_tocBlocks lines

/-- A line that is both markers goes on with a block that an end marker stands in, and a start
marker above a heading is a block of its own. -/
example : tocBlocks ["%% MDNAV:TOC START %%".toList, "%% MDNAV:TOC END %%".toList,
    "%% MDNAV:TOC START %% MDNAV:TOC END %%".toList, "%% MDNAV:TOC START %%".toList,
    "## A".toList] = [⟨0, 2⟩, ⟨3, 3⟩] := by decide +kernel

end Waymark
