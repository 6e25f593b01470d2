import Waymark.Proofs.Edits

/-!
# The one anchor of any buffer

The stage of the anchor is told for a buffer that was just given its title, but it makes sense of
any buffer and any place, also of a place beyond the last line. Anchors above the place, at it and
below it all go, except that one is left at the place; the place moves up with every anchor that
goes above it. So the stage cuts the buffer at the place, takes the anchors out of the two parts,
and puts one between them. No other line is lost or moved past another one, and only empty lines
come in besides: those that fill a buffer up to a place beyond its end, and one below the anchor.

## Main definitions

* `HasSoleAnchor` — a buffer with the anchors of another one brought to one place

## Main results

* `ensureEmptyAt_ensureEmptyAt`, `ensureTopAnchor_of_parts` — a second time nothing is to be done
* `hasSoleAnchor_ensureTopAnchor` — the stage of the anchor
-/

namespace Waymark

/-- The anchors of `lines` are brought to one place in `out`, that of the line at `index`. -/
structure HasSoleAnchor (lines : Buffer) (index : Nat) (out : Buffer) (place : Nat) : Prop where
  /-- The place moves up by one line for each anchor above. -/
  place_add : place + anchorsAbove lines index = index
  /-- The line at the place is an anchor, and no other line is. -/
  only : ∀ i, out[i]? = some topAnchor ↔ i = place
  /-- The line below it is empty, or there is none. -/
  gapBelow : ∀ line ∈ out[place + 1]?, line = []
  /-- The lines that are no anchors are kept in order, on the two sides of the anchor. Only empty
  lines are put in besides: above the anchor as many as `index` lies beyond the end, and below it
  one if the line that stands there is not empty. -/
  others : ∃ above below gap, withoutAnchors lines = above ++ below ∧
    out = above ++ List.replicate (index - lines.length) [] ++ topAnchor :: (gap ++ below) ∧
    gap = if isFilledAt below 0 then [[]] else []
  /-- For the new place there is nothing to be done. -/
  settled : ensureTopAnchor out place = (out, place)

variable {front back lines : Buffer}

/-- One empty line is enough. -/
theorem ensureEmptyAt_ensureEmptyAt (lines : Buffer) :
    ensureEmptyAt (ensureEmptyAt lines 0) 0 = ensureEmptyAt lines 0 := by
  rw [ensureEmptyAt_zero lines]
  split <;> rfl

/-- A buffer with one anchor is left as it is. -/
theorem ensureTopAnchor_of_parts (hfront : topAnchor ∉ front) (hback : topAnchor ∉ back)
    (hgap : ensureEmptyAt back 0 = back) :
    ensureTopAnchor (front ++ topAnchor :: back) front.length =
      (front ++ topAnchor :: back, front.length) := by
  have hpad : front.length - (front ++ topAnchor :: back).length = 0 := by simp
  have hnone : anchorsAbove (front ++ topAnchor :: back) front.length = 0 := by
    rw [anchorsAbove, List.take_left, List.count_eq_zero]
    exact hfront
  have hbelow : withoutAnchors (topAnchor :: back) = back :=
    (List.filter_cons_of_neg (by simp)).trans (withoutAnchors_eq_self hback)
  rw [ensureTopAnchor_eq_parts, hpad, hnone, List.take_left, List.drop_left, hbelow, hgap,
    withoutAnchors_eq_self hfront, List.replicate_zero, List.append_nil, Nat.sub_zero]

/-- The stage of the anchor, in place as well as on the whole buffer, brings all anchors to one
place. -/
theorem hasSoleAnchor_ensureTopAnchor (lines : Buffer) (index : Nat) :
    ensureTopAnchor? lines index = some (ensureTopAnchor lines index) ∧
      HasSoleAnchor lines index (ensureTopAnchor lines index).1
        (ensureTopAnchor lines index).2 := by
  refine ⟨ensureTopAnchor?_eq lines index, ?_⟩
  have hcount := anchorsAbove_le lines index
  have htake : anchorsAbove lines index ≤ (lines.take index).length := List.count_le_length
  have hkept : (withoutAnchors (lines.take index)).length =
      (lines.take index).length - anchorsAbove lines index := length_withoutAnchors _
  rw [List.length_take] at htake hkept
  have hout := ensureTopAnchor_eq_parts lines index
  generalize hfront : withoutAnchors (lines.take index) ++
    List.replicate (index - lines.length) [] = front at hout
  have hplace : index - anchorsAbove lines index = front.length := by
    rw [← hfront, List.length_append, List.length_replicate, hkept]
    omega
  have hnone : topAnchor ∉ front := by
    rw [← hfront, List.mem_append, not_or, List.mem_replicate]
    exact ⟨topAnchor_not_mem_withoutAnchors _, fun h => absurd h.2 (by decide)⟩
  have hbelow := topAnchor_not_mem_ensureEmptyAt (lines.drop index)
  rw [hout, hplace]
  refine ⟨by omega, fun i => getElem?_append_cons_eq_iff hnone hbelow, ?_, ?_, ?_⟩
  · intro line hline
    rw [List.getElem?_append_right (Nat.le_add_right _ 1), Nat.add_sub_cancel_left,
      List.getElem?_cons_succ, ← List.head?_eq_getElem?] at hline
    exact head?_ensureEmptyAt _ line hline
  · refine ⟨withoutAnchors (lines.take index), withoutAnchors (lines.drop index), _, ?_, ?_, rfl⟩
    · rw [← withoutAnchors_append, List.take_append_drop]
    · rw [hfront, ensureEmptyAt_zero_eq_append]
  · exact ensureTopAnchor_of_parts hnone hbelow (ensureEmptyAt_ensureEmptyAt _)

end Waymark
