import Waymark.Proofs.Contents

/-!
# A buffer with one block

The block of a buffer that has no other one opens with its first start marker, holds no headings
below that line, and goes when tables of contents are taken out. Between the two start and the two
end markers of a table of contents any other lines make a block again, unless there are headings
or markers among them.

## Main definitions

* `OnlyBlock` — the lines have one block
* `OneToc` — it is one from two start marker lines through two end marker lines

## Main results

* `OnlyBlock.exists_cons` — where the only block opens and ends
* `OneToc.onlyBlock` — other lines between the markers make a block again
-/

namespace Waymark

variable {lines front block back above below opening closing inner inner' : Buffer} {line : Line}

/-! ### One block -/

/-- The lines have one block. -/
structure OnlyBlock (lines front block back : Buffer) : Prop where
  /-- The parts of the lines. -/
  parts : lines = front ++ block ++ back
  /-- The block is not empty. -/
  ne_nil : block ≠ []
  /-- It is what is found. -/
  found : tocBlocks lines = [⟨front.length, front.length + block.length - 1⟩]

theorem isStartMarker_eq_false_of_tocBlocksFrom {index : Nat}
    (h : tocBlocksFrom 0 index lines = []) :
    ∀ line ∈ lines, isStartMarker line = false := by
  induction lines generalizing index with
  | nil => simp
  | cons line lines ih =>
    rw [tocBlocksFrom] at h
    split at h
    · cases h
    · next hline => exact List.forall_mem_cons.mpr ⟨by simpa using hline, ih h⟩

theorem of_tocBlocksFrom {index last : Nat} {first : Line} {rest : Buffer}
    (h : tocBlocksFrom 0 index (front ++ first :: rest) = [⟨index + front.length, last⟩]) :
    (∀ line ∈ front, isStartMarker line = false) ∧ isStartMarker first = true ∧
      last = index + front.length + blockReach false rest ∧
        tocBlocksFrom (blockReach false rest) (index + front.length + 1) rest = [] := by
  induction front generalizing index with
  | nil =>
    rw [List.nil_append, tocBlocksFrom, List.length_nil] at h
    split at h
    · next hfirst =>
      obtain ⟨hspan, hrest⟩ := List.cons.inj h
      obtain ⟨-, hlast⟩ := Span.mk.inj hspan
      exact ⟨by simp, hfirst, hlast.symm, hrest⟩
    · -- The blocks of the rest start below this line.
      have hmem : (⟨index + 0, last⟩ : Span) ∈ tocBlocksFrom 0 (index + 1) rest := by simp [h]
      rw [tocBlocksFrom_eq_scanSpans] at hmem
      have := (of_mem_scanSpans hmem).1
      simp only at this
      omega
  | cons line front ih =>
    rw [List.cons_append, tocBlocksFrom, List.length_cons] at h
    split at h
    · -- A block would start at this line, above the only one.
      obtain ⟨hspan, -⟩ := List.cons.inj h
      obtain ⟨hfirst, -⟩ := Span.mk.inj hspan
      omega
    · next hline =>
      have hindex : index + (front.length + 1) = index + 1 + front.length := by omega
      rw [hindex] at h
      obtain ⟨hfront, hfirst, hlast, hrest⟩ := ih h
      rw [List.length_cons, hindex]
      exact ⟨List.forall_mem_cons.mpr ⟨by simpa using hline, hfront⟩, hfirst, hlast, hrest⟩

/-- A block opens with the first start marker and ends where it reaches. -/
theorem OnlyBlock.exists_cons (h : OnlyBlock lines front block back) :
    (∀ line ∈ front, isStartMarker line = false) ∧ (∀ line ∈ back, isStartMarker line = false) ∧
      ∃ first rest, block = first :: rest ∧ isStartMarker first = true ∧
        blockReach false (rest ++ back) = rest.length := by
  obtain ⟨hparts, hne, hfound⟩ := h
  obtain ⟨first, rest, rfl⟩ := List.exists_cons_of_ne_nil hne
  have hscan : tocBlocksFrom 0 0 (front ++ first :: (rest ++ back)) =
      [⟨0 + front.length, front.length + (first :: rest).length - 1⟩] := by
    rw [Nat.zero_add, ← hfound, tocBlocks, hparts]
    simp
  obtain ⟨hfront, hfirst, hlast, hrest⟩ := of_tocBlocksFrom hscan
  have hreach : blockReach false (rest ++ back) = rest.length := by
    rw [List.length_cons] at hlast
    omega
  rw [hreach, tocBlocksFrom_append_inside] at hrest
  exact ⟨hfront, isStartMarker_eq_false_of_tocBlocksFrom hrest, first, rest, rfl, hfirst, hreach⟩

/-- No line of a block below its first one is a heading. -/
theorem OnlyBlock.isHeadingLine_tail (h : OnlyBlock lines front block back) :
    ∀ line ∈ block.tail, isHeadingLine line = false := by
  obtain ⟨-, -, first, rest, rfl, -, hreach⟩ := h.exists_cons
  intro line hline
  have htake : line ∈ (rest ++ back).take (blockReach false (rest ++ back)) := by
    rw [hreach, List.take_left]
    exact hline
  exact isHeadingLine_eq_false_of_mem_take_blockReach htake

/-- The stage takes the block out, whatever it takes out below. -/
theorem OnlyBlock.withoutToc_eq (h : OnlyBlock lines front block back) :
    withoutToc (block ++ back) = withoutToc back := by
  obtain ⟨-, -, first, rest, rfl, hfirst, hreach⟩ := h.exists_cons
  rw [List.cons_append, withoutToc_cons_start hfirst, hreach, List.drop_left]

/-! ### A note with one table of contents -/

/-- The lines have one block, from two start marker lines through two end marker lines. -/
structure OneToc (lines above opening inner closing below : Buffer) : Prop where
  /-- There is no other block. -/
  only : OnlyBlock lines above (opening ++ inner ++ closing) below
  /-- Two start marker lines open it. -/
  opens : opening.length = 2 ∧ ∀ line ∈ opening, isStartMarker line = true
  /-- Two end marker lines close it. -/
  closes : closing.length = 2 ∧ ∀ line ∈ closing, isEndMarker line = true

theorem OneToc.getLast? (h : OneToc lines above opening inner closing below) :
    ∀ line ∈ (opening ++ inner ++ closing).getLast?, isEndMarker line = true := by
  obtain ⟨last, hlast⟩ := Option.isSome_iff_exists.mp (List.getLast?_isSome.mpr
    (List.ne_nil_of_length_pos (Nat.lt_of_lt_of_eq Nat.two_pos h.closes.1.symm)))
  intro line hline
  rw [List.getLast?_append, hlast, Option.some_or] at hline
  obtain rfl := Option.some.inj hline
  exact h.closes.2 _ (List.mem_of_getLast? hlast)

/-- The lines between the markers are no headings. -/
theorem OneToc.isHeadingLine_inner (h : OneToc lines above opening inner closing below) :
    ∀ line ∈ inner, isHeadingLine line = false := by
  obtain ⟨first, second, rfl⟩ := List.length_eq_two.mp h.opens.1
  exact fun line hline => h.only.isHeadingLine_tail line (by simp [hline])

/-- Putting other lines between the markers changes no heading. -/
theorem OneToc.outline_eq (h : OneToc lines above opening inner closing below)
    (hinner : ∀ line ∈ inner', isHeadingLine line = false) :
    outline (above ++ (opening ++ inner' ++ closing) ++ below) = outline lines := by
  rw [h.only.parts]
  simp only [outline_append, outline_eq_nil h.isHeadingLine_inner, outline_eq_nil hinner]

/-- Where the block is a table of contents, other lines between its markers make a block again. -/
theorem OneToc.onlyBlock (h : OneToc lines above opening inner closing below) {listed : Buffer}
    {depth : Nat} (hblock : opening ++ inner ++ closing = tocListing listed depth)
    (hclean : ∀ line ∈ listed, isHeadingLine line = true → isStartMarker line = false)
    (hinner : ∀ line ∈ inner', isHeadingLine line = false ∧ isStartMarker line = false) :
    (∀ line ∈ opening ++ inner' ++ closing, isHeadingLine line = false) ∧
      OnlyBlock (above ++ (opening ++ inner' ++ closing) ++ below) above
        (opening ++ inner' ++ closing) below := by
  obtain ⟨habove, hbelow, first, rest, hcons, -, hreach⟩ := h.only.exists_cons
  have hfollow := blockReach_tocListing hclean depth below
  rw [← hblock, hcons, List.tail_cons, hreach] at hfollow
  rw [tocListing_eq, List.append_assoc, List.append_assoc] at hblock
  -- The opening and the closing lines have fixed lengths, so they are those of the listing.
  obtain ⟨rfl, hrest⟩ := List.append_inj hblock (by rw [h.opens.1]; rfl)
  obtain ⟨-, rfl⟩ := List.append_inj' hrest (by rw [h.closes.1]; rfl)
  have hplain :
      ∀ line ∈ startMarkerLines ++ inner' ++ endMarkerLines, isHeadingLine line = false := by
    intro line hline
    rcases List.mem_append.mp hline with hline | hline
    · rcases List.mem_append.mp hline with hline | hline
      · exact (forall_mem_startMarkerLines line hline).1
      · exact (hinner line hline).1
    · exact (forall_mem_endMarkerLines line hline).1
  refine ⟨hplain, rfl, by simp [startMarkerLines], ?_⟩
  rw [tocBlocks, List.append_assoc, tocBlocksFrom_append_quiet habove, Nat.zero_add,
    tocBlocksFrom_between hinner (by omega), tocBlocksFrom_eq_nil hbelow]

end Waymark
