import Waymark.Proofs.Renewal
import Waymark.Proofs.TocEdits

/-!
# Editing the footers in place

The stage of the footers keeps, for every line, the furthest end of the sections around it. It
looks for old footers by three nested loops over line indices, takes them out from the last to the
first, and puts new ones in from the last heading to the first. The indices of the headings behind
an insertion move with it, so they stay good for the sections that are still to come.

With it, all stages stay in range: no index, no range and no difference of indices ever leaves the
buffer, whatever the lines, the file name and the options are.

## Main definitions

* `sectionBounds?`, `nextMatch?`, `unitEnd?`, `footerSpansAt?` — finding old footers
* `putFooters?` — new footers put in
* `FooterLoop`, `FooterLoop.round?`, `FooterLoop.rounds?` — the same, one heading at a time
* `footSection` — what a round does for the heading that it visits
* `ensureFooters?`, `arrangeLines?` — the stage and the whole arrangement in place

## Main results

* `unitEnd?_append`, `scanLoop_footerSpansAt?` — the loops find the old footers
* `FooterLoop.round?_eq`, `FooterLoop.putFooters?_eq_rounds?` — one round, and all of them
* `putFooters?_append` — the new footers are put in within the buffer
* `arrangeLines_inRange` — no edit ever goes out of range
-/

namespace Waymark

/-- The further one of an end that may be known and another one. -/
def furthest (bound : Option Nat) (last : Nat) : Option Nat :=
  some (bound.elim last (max · last))

/-- The furthest end of the sections around each line. The heading that opens a section is looked
up by its position. -/
def sectionBounds? (levels : List Nat) (heads : List Heading) (count : Nat) :
    Option (List (Option Nat)) :=
  heads.zipIdx.foldlM (fun bounds (head, position) =>
    if levels.contains head.level then do
      let last ← sectionEndAt? heads position count
      return bounds.mapIdx fun index bound =>
        if head.line < index && index ≤ last then furthest bound last else bound
    else some bounds) (List.replicate count none)

/-- The first line from `index` through `limit` that is not blank, if there is one. -/
def nextVisible? (lines : Buffer) (index limit : Nat) : Option (Option Nat) :=
  if index ≤ limit then
    match lines[index]? with
    | none => none
    | some line => if isBlank line then nextVisible? lines (index + 1) limit else some (some index)
  else some none
termination_by limit + 1 - index

/-- The first line from `index` through `limit` that is not blank, if it passes the test. -/
def nextMatch? (test : Line → Bool) (lines : Buffer) (index limit : Nat) :
    Option (Option Nat) := do
  match ← nextVisible? lines index limit with
  | none => return none
  | some next =>
    let line ← lines[next]?
    return if test line then some next else none

theorem bounds_of_nextVisible? {lines : Buffer} {index limit next : Nat}
    (h : nextVisible? lines index limit = some (some next)) : index ≤ next ∧ next ≤ limit := by
  induction hcount : limit + 1 - index generalizing index with
  | zero =>
    rw [nextVisible?, if_neg (by omega)] at h
    cases h
  | succ count ih =>
    rw [nextVisible?, if_pos (by omega)] at h
    cases hread : lines[index]? with
    | none =>
      rw [hread] at h
      cases h
    | some line =>
      simp only [hread] at h
      split at h
      · have := ih h (by omega)
        omega
      · obtain rfl : index = next := by simpa using h
        omega

theorem bounds_of_nextMatch? {test : Line → Bool} {lines : Buffer} {index limit next : Nat}
    (h : nextMatch? test lines index limit = some (some next)) : index ≤ next ∧ next ≤ limit := by
  rw [nextMatch?] at h
  cases hvisible : nextVisible? lines index limit with
  | none =>
    rw [hvisible] at h
    cases h
  | some found =>
    cases found with
    | none =>
      rw [hvisible] at h
      cases h
    | some found =>
      have hbounds := bounds_of_nextVisible? hvisible
      simp only [hvisible, Option.bind_eq_bind, Option.bind_some, Option.bind_eq_some_iff,
        Option.pure_def, Option.some.injEq] at h
      obtain ⟨line, -, hfound⟩ := h
      split at hfound
      · cases hfound
        exact hbounds
      · cases hfound

/-- Behind a rule line, if there is one, the next footer is further below. -/
theorem bounds_of_nextMatch?_nextMatch? {test other : Line → Bool} {lines : Buffer}
    {last limit next : Nat} {ruled : Option Nat}
    (hrule : nextMatch? test lines (last + 1) limit = some ruled)
    (hnext : nextMatch? other lines (ruled.getD last + 1) limit = some (some next)) :
    last < next ∧ next ≤ limit := by
  have hbounds := bounds_of_nextMatch? hnext
  cases ruled with
  | none =>
    rw [Option.getD_none] at hbounds
    omega
  | some ruled =>
    have := bounds_of_nextMatch? hrule
    rw [Option.getD_some] at hbounds
    omega

/-- The end of a footer that starts at `last`: through its rule line, through the next footer and
its rule line, and so on, with only blank lines between them. -/
def unitEnd? (rule : Line) (lines : Buffer) (limit last : Nat) : Option Nat :=
  match hrule : nextMatch? (isMarkLine rule) lines (last + 1) limit with
  | none => none
  | some ruled =>
    match hnext : nextMatch? isFooterLine lines (ruled.getD last + 1) limit with
    | none => none
    | some none => some (ruled.getD last)
    | some (some next) =>
      have := bounds_of_nextMatch?_nextMatch? hrule hnext
      unitEnd? rule lines limit next
termination_by limit - last

theorem le_of_unitEnd? {rule : Line} {lines : Buffer} {limit last found : Nat}
    (h : unitEnd? rule lines limit last = some found) : last ≤ found := by
  induction hcount : limit - last using Nat.strong_induction_on generalizing last with
  | _ count ih =>
    rw [unitEnd?] at h
    split at h
    · cases h
    · next ruled hrule =>
      split at h
      · cases h
      · obtain rfl := Option.some.inj h
        cases ruled with
        | none => exact Nat.le_refl _
        | some ruled =>
          have := bounds_of_nextMatch? hrule
          rw [Option.getD_some]
          omega
      · next next hnext =>
        have := bounds_of_nextMatch?_nextMatch? hrule hnext
        have := ih (limit - next) (by omega) h rfl
        omega

/-- The old footers at and behind `index`. -/
def footerSpansAt? (rule : Line) (bounds : List (Option Nat)) (lines : Buffer) (index : Nat) :
    Option (List Span) :=
  if index < lines.length then
    match bounds[index]? with
    | none => none
    | some none => footerSpansAt? rule bounds lines (index + 1)
    | some (some limit) =>
      match lines[index]? with
      | none => none
      | some line =>
        if isFooterLine line then
          match hunit : unitEnd? rule lines limit index with
          | none => none
          | some last => (footerSpansAt? rule bounds lines (last + 1)).map (⟨index, last⟩ :: ·)
        else footerSpansAt? rule bounds lines (index + 1)
  else some []
termination_by lines.length - index
decreasing_by
  · omega
  · have := le_of_unitEnd? hunit
    omega
  · omega

/-- New footers for the first `position` headings, put in from the last to the first. -/
def putFooters? (levels : List Nat) (rule : Line) :
    Nat → List Heading → Buffer → Option Buffer
  | 0, _, lines => some lines
  | position + 1, heads, lines => do
    let head ← heads[position]?
    if levels.contains head.level then
      let last ← sectionEndAt? heads position lines.length
      let closing ← lines[last]?
      let footer := footerLines rule (isBlank closing)
      let footed ← lines.splice? (last + 1) footer
      let moved := (heads.drop (position + 1)).map (·.shift (last + 1) footer.length)
      putFooters? levels rule position (heads.take (position + 1) ++ moved) footed
    else putFooters? levels rule position heads lines

/-- The loop that puts footers in, between two of its rounds. -/
structure FooterLoop where
  /-- How many headings, counted from the first one, are still to be visited. -/
  ahead : Nat
  /-- The headings as they are remembered. -/
  heads : List Heading
  /-- The lines as they are. -/
  lines : Buffer
  deriving DecidableEq, Repr

namespace FooterLoop

/-- One round: the last heading that is still to be visited gets a footer if its level is one of
the configured ones, and the headings behind it move if they stand below the footer. -/
def round? (levels : List Nat) (rule : Line) (loop : FooterLoop) : Option FooterLoop :=
  match loop.ahead with
  | 0 => none
  | position + 1 => do
    let head ← loop.heads[position]?
    if levels.contains head.level then
      let last ← sectionEndAt? loop.heads position loop.lines.length
      let closing ← loop.lines[last]?
      let footer := footerLines rule (isBlank closing)
      let footed ← loop.lines.splice? (last + 1) footer
      let moved := (loop.heads.drop (position + 1)).map (·.shift (last + 1) footer.length)
      return ⟨position, loop.heads.take (position + 1) ++ moved, footed⟩
    else return { loop with ahead := position }

/-- The loop after `count` rounds. -/
def rounds? (levels : List Nat) (rule : Line) : Nat → FooterLoop → Option FooterLoop
  | 0, loop => some loop
  | count + 1, loop => loop.round? levels rule >>= rounds? levels rule count

end FooterLoop

/-- The footer of the section that a heading opens, put in, and the heading with those behind it at
their new lines. -/
def footSection (levels : List Nat) (rule : Line) (head : Heading) (later : List Heading)
    (lines : Buffer) : Buffer × List Heading :=
  if levels.contains head.level then
    let last := sectionEnd head.level later lines.length
    let footer := footerLines rule (isBlank (lines[last]?.getD []))
    (lines.insertAt (last + 1) footer, head :: later.map (·.shift (last + 1) footer.length))
  else (lines, head :: later)

/-- The stage of the footers in place. -/
def ensureFooters? (lines : Buffer) (levels : List Nat) (rule : List Char) : Option Buffer := do
  let heads := headings lines
  if heads.isEmpty || levels.isEmpty then return lines
  let rule := ruleLine rule
  let bounds ← sectionBounds? levels heads lines.length
  let spans ← footerSpansAt? rule bounds lines 0
  let kept ← lines.drainAll? spans.reverse
  let heads := headings kept
  putFooters? levels rule heads.length heads kept

/-- The buffer arranged in place. -/
def arrangeLines? (lines : Buffer) (name : List Char) (options : Options) : Option Buffer := do
  let (lines, anchor) ← arrangeTop? lines name options
  let lines ← ensureToc? lines anchor options.maxDepth
  ensureFooters? lines options.footerLevels options.rule

variable {levels : List Nat} {rule line closing : Line} {lines front back rest part : Buffer}
variable {heads above later : List Heading} {head : Heading} {index limit count level : Nat}
variable {position last : Nat}
variable {test : Line → Bool} {bound? : Nat → Option Nat} {bounds : List (Option Nat)}

/-! ### The ends of the sections -/

/-- A section of headings that lie in a buffer ends in the buffer. -/
theorem sectionEnd_lt (hcount : 0 < count) (h : ∀ head ∈ later, head.line < count) (level : Nat) :
    sectionEnd level later count < count := by
  rw [sectionEnd]
  split
  · next next hnext =>
    have := h next (List.mem_of_find?_eq_some hnext)
    omega
  · omega

theorem foldl_furthest (bound : Option Nat) (ends : List Nat) :
    ends.foldl furthest bound = match bound with
      | none => ends.max?
      | some last => some (ends.foldl max last) := by
  induction ends generalizing bound with
  | nil => cases bound <;> rfl
  | cons first ends ih =>
    rw [List.foldl_cons, ih]
    cases bound with
    | none => rw [List.max?_cons']; rfl
    | some last => rfl

/-- The bounds that the headings behind `above` add to those found so far. -/
theorem foldlM_sectionBounds (levels : List Nat) (count : Nat) (above heads : List Heading)
    (bounds : List (Option Nat)) :
    ∃ found, (heads.zipIdx above.length).foldlM (fun bounds (head, position) =>
        if levels.contains head.level then do
          let last ← sectionEndAt? (above ++ heads) position count
          return bounds.mapIdx fun index bound =>
            if head.line < index && index ≤ last then furthest bound last else bound
        else some bounds) bounds = some found ∧
      ∀ index : Nat, found[index]? =
        bounds[index]?.map ((sectionEndsAround levels count index heads).foldl furthest) := by
  induction heads generalizing above bounds with
  | nil => exact ⟨bounds, rfl, fun index => by simp [sectionEndsAround]⟩
  | cons head heads ih =>
    have hlater := ih (above ++ [head])
    simp only [List.length_append, List.length_singleton, List.append_assoc,
      List.singleton_append] at hlater
    rw [List.zipIdx_cons, List.foldlM_cons]
    cases hlevel : levels.contains head.level with
    | false =>
      obtain ⟨found, hfound, hread⟩ := hlater bounds
      refine ⟨found, ?_, fun index => ?_⟩
      · simpa only [hlevel, Bool.false_eq_true, if_false, Option.bind_eq_bind, Option.bind_some]
          using hfound
      · simp only [hread, sectionEndsAround, hlevel, Bool.false_and, Bool.false_eq_true, if_false]
    | true =>
      have hend : sectionEndAt? (above ++ head :: heads) above.length count =
          some (sectionEnd head.level heads count) := by
        simp [sectionEndAt?]
      -- The heading moves the bounds inside its section, and the later headings start from those.
      obtain ⟨found, hfound, hread⟩ := hlater (bounds.mapIdx fun index bound =>
        if head.line < index && index ≤ sectionEnd head.level heads count then
          furthest bound (sectionEnd head.level heads count) else bound)
      refine ⟨found, ?_, fun index => ?_⟩
      · simpa only [hlevel, if_true, hend, Option.bind_eq_bind, Option.bind_some, Option.pure_def]
          using hfound
      · rw [hread, List.getElem?_mapIdx, Option.map_map, sectionEndsAround, hlevel, Bool.true_and]
        congr 1
        funext bound
        simp only [Function.comp_apply]
        split <;> rfl

/-- Every line has its bound. -/
theorem exists_sectionBounds? (levels : List Nat) (heads : List Heading) (count : Nat) :
    ∃ bounds, sectionBounds? levels heads count = some bounds ∧
      ∀ index < count, bounds[index]? = some (sectionBound? levels heads count index) := by
  obtain ⟨bounds, hbounds, hread⟩ :=
    foldlM_sectionBounds levels count [] heads (List.replicate count none)
  refine ⟨bounds, hbounds, fun index hindex => ?_⟩
  rw [hread, List.getElem?_replicate, if_pos hindex, Option.map_some, foldl_furthest, sectionBound?]

theorem bounds_of_mem_sectionEndsAround {last : Nat} (h : ∀ head ∈ heads, head.line < count)
    (hlast : last ∈ sectionEndsAround levels count index heads) : index ≤ last ∧ last < count := by
  induction heads with
  | nil => cases hlast
  | cons head heads ih =>
    obtain ⟨hhead, hlater⟩ := List.forall_mem_cons.mp h
    rw [sectionEndsAround] at hlast
    split at hlast
    · next hinside =>
      rcases List.mem_cons.mp hlast with rfl | hlast
      · simp only [Bool.and_eq_true, decide_eq_true_eq] at hinside
        exact ⟨hinside.2, sectionEnd_lt (by omega) hlater head.level⟩
      · exact ih hlater hlast
    · exact ih hlater hlast

/-- The bound of a line lies behind it and within the buffer. -/
theorem bounds_of_sectionBound? (h : sectionBound? levels (headings lines) lines.length index =
    some limit) : index ≤ limit ∧ limit < lines.length := by
  apply bounds_of_mem_sectionEndsAround _ (List.max?_mem h)
  intro head hhead
  simpa using line_lt_of_mem_headingsFrom hhead

/-! ### Old footers -/

/-- How many blank lines stand above the first other line, if that line passes the test. -/
def matchOffset (test : Line → Bool) (lines : Buffer) : Option Nat :=
  match lines.dropWhile isBlank with
  | [] => none
  | next :: _ => if test next then some (lines.takeWhile isBlank).length else none

theorem matchOffset_lt {offset : Nat} (h : matchOffset test lines = some offset) :
    offset < lines.length := by
  have hparts := congrArg List.length (List.takeWhile_append_dropWhile (p := isBlank) (l := lines))
  rw [List.length_append] at hparts
  rw [matchOffset] at h
  split at h
  · cases h
  · next next more hvisible =>
    rw [hvisible, List.length_cons] at hparts
    split at h
    · obtain rfl := Option.some.inj h
      omega
    · cases h

theorem matchOffset_cons_of_blank (h : isBlank line = true) :
    matchOffset test (line :: lines) = (matchOffset test lines).map (· + 1) := by
  rw [matchOffset, matchOffset, List.dropWhile_cons_of_pos h, List.takeWhile_cons_of_pos h]
  cases lines.dropWhile isBlank with
  | nil => rfl
  | cons next more =>
    dsimp only
    split <;> rfl

theorem matchOffset_cons_of_visible (h : isBlank line = false) :
    matchOffset test (line :: lines) = if test line then some 0 else none := by
  have hneg : ¬isBlank line = true := by simp [h]
  rw [matchOffset, List.dropWhile_cons_of_neg hneg, List.takeWhile_cons_of_neg hneg]
  rfl

/-- Within a part of the buffer, the search reads the first line that is not blank. -/
theorem nextMatch?_append (test : Line → Bool) (front part back : Buffer)
    (hlimit : limit + 1 = front.length + part.length) :
    nextMatch? test (front ++ part ++ back) front.length limit =
      some ((matchOffset test part).map (front.length + ·)) := by
  induction part generalizing front with
  | nil =>
    rw [nextMatch?, nextVisible?, if_neg (by rw [List.length_nil] at hlimit; omega)]
    rfl
  | cons line part ih =>
    rw [List.length_cons] at hlimit
    have hread : (front ++ line :: part ++ back)[front.length]? = some line := by simp
    cases hblank : isBlank line with
    | true =>
      -- A blank line is passed over, and the search goes on one line further down.
      have hrest := ih (front ++ [line]) (by rw [List.length_append, List.length_singleton]; omega)
      rw [nextMatch?, List.length_append, List.length_singleton, List.append_assoc front,
        List.singleton_append] at hrest
      rw [nextMatch?, nextVisible?, if_pos (by omega), hread, matchOffset_cons_of_blank hblank,
        Option.map_map]
      simp only [hblank, if_true, hrest]
      congr 2
      funext offset
      simp only [Function.comp_apply]
      omega
    | false =>
      rw [nextMatch?, nextVisible?, if_pos (by omega), hread, matchOffset_cons_of_visible hblank]
      simp only [hblank, Bool.false_eq_true, if_false, Option.bind_eq_bind, Option.bind_some, hread]
      cases test line <;> rfl

theorem unitReach_cons_of_blank (h : isBlank line = true) (rule : Line) (ruled : Bool)
    (lines : Buffer) : unitReach rule ruled (line :: lines) =
      if unitReach rule ruled lines = 0 then 0 else unitReach rule ruled lines + 1 := by
  rw [unitReach, if_pos h]
  cases unitReach rule ruled lines <;> rfl

/-- A unit goes on behind the next line that is not blank, if that is a footer. -/
theorem unitReach_true (rule : Line) (lines : Buffer) : unitReach rule true lines =
    (matchOffset isFooterLine lines).elim 0
      fun offset => offset + 1 + unitReach rule false (lines.drop (offset + 1)) := by
  induction lines with
  | nil => rfl
  | cons line lines ih =>
    cases hblank : isBlank line with
    | true =>
      rw [unitReach_cons_of_blank hblank, matchOffset_cons_of_blank hblank, ih]
      cases matchOffset isFooterLine lines with
      | none => rfl
      | some offset =>
        rw [Option.map_some, Option.elim_some, Option.elim_some, List.drop_succ_cons]
        split <;> omega
    | false =>
      rw [unitReach, matchOffset_cons_of_visible hblank]
      simp only [hblank, Bool.false_eq_true, if_false, Bool.not_true, Bool.false_and]
      cases isFooterLine line with
      | true => exact Nat.add_comm _ _
      | false => rfl

/-- The rule line of a unit is the next line that is not blank. -/
theorem unitReach_false (rule : Line) (lines : Buffer) : unitReach rule false lines =
    (matchOffset (isMarkLine rule) lines).elim (unitReach rule true lines)
      fun offset => offset + 1 + unitReach rule true (lines.drop (offset + 1)) := by
  induction lines with
  | nil => rfl
  | cons line lines ih =>
    cases hblank : isBlank line with
    | true =>
      rw [unitReach_cons_of_blank hblank, matchOffset_cons_of_blank hblank, ih]
      cases matchOffset (isMarkLine rule) lines with
      | none => exact (unitReach_cons_of_blank hblank rule true lines).symm
      | some offset =>
        rw [Option.map_some, Option.elim_some, Option.elim_some, List.drop_succ_cons]
        split <;> omega
    | false =>
      rw [unitReach, matchOffset_cons_of_visible hblank, unitReach]
      simp only [hblank, Bool.false_eq_true, if_false, Bool.not_true, Bool.not_false, Bool.true_and,
        Bool.false_and]
      cases isMarkLine rule line with
      | true => exact Nat.add_comm _ _
      | false => rfl

/-- The lines through a match, as the front of what follows it. -/
theorem cut_match {offset : Nat} (h : offset < part.length) (front back : Buffer) :
    front ++ part ++ back = (front ++ part.take (offset + 1)) ++ part.drop (offset + 1) ++ back ∧
      (front ++ part.take (offset + 1)).length = front.length + offset + 1 ∧
        (part.drop (offset + 1)).length = part.length - (offset + 1) := by
  refine ⟨?_, ?_, List.length_drop⟩
  · rw [List.append_assoc front (part.take _), List.take_append_drop]
  · rw [List.length_append, List.length_take_of_le h]
    omega

/-- Behind the rule line, or the link where none follows, the unit goes on with the next footer. -/
theorem elim_matchOffset_footer {ruled : Nat} {unitEnd : Nat → Option Nat}
    (hend : ∀ offset, matchOffset isFooterLine part = some offset →
      unitEnd (ruled + 1 + offset) =
        some (ruled + 1 + offset + unitReach rule false (part.drop (offset + 1)))) :
    ((matchOffset isFooterLine part).map (ruled + 1 + ·)).elim (some ruled) unitEnd =
      some (ruled + unitReach rule true part) := by
  rw [unitReach_true]
  cases hoffset : matchOffset isFooterLine part with
  | none => rfl
  | some offset =>
    rw [Option.map_some, Option.elim_some, Option.elim_some, hend offset hoffset]
    congr 1
    omega

/-- One round of the loop over a unit. -/
theorem unitEnd?_of_nextMatch? {last : Nat} {ruled found : Option Nat}
    (hrule : nextMatch? (isMarkLine rule) lines (last + 1) limit = some ruled)
    (hnext : nextMatch? isFooterLine lines (ruled.getD last + 1) limit = some found) :
    unitEnd? rule lines limit last =
      found.elim (some (ruled.getD last)) (unitEnd? rule lines limit) := by
  rw [unitEnd?]
  split
  · next hnone =>
    rw [hrule] at hnone
    cases hnone
  · next _ hruled =>
    obtain rfl := Option.some.inj (hruled.symm.trans hrule)
    split
    · next hnone =>
      rw [hnext] at hnone
      cases hnone
    · next hnone =>
      obtain rfl := Option.some.inj (hnone.symm.trans hnext)
      rfl
    · next next hsome =>
      obtain rfl := Option.some.inj (hsome.symm.trans hnext)
      rfl

/-- The loop over a unit reads the lines through the bound only, and ends where the unit ends. -/
theorem unitEnd?_append (rule : Line) (front part back : Buffer) {last : Nat}
    (hlast : last + 1 = front.length) (hlimit : limit + 1 = front.length + part.length) :
    unitEnd? rule (front ++ part ++ back) limit last = some (last + unitReach rule false part) := by
  induction hcount : part.length using Nat.strong_induction_on generalizing front part last with
  | _ count ih =>
    subst hcount
    generalize hlines : front ++ part ++ back = lines
    -- Below a rule the loop looks for a footer, which is the start of a shorter unit.
    have hnext (front' part' : Buffer) (ruled : Nat) (hwhole : lines = front' ++ part' ++ back)
        (hruled : ruled + 1 = front'.length) (hlimit' : limit + 1 = front'.length + part'.length)
        (hle : part'.length ≤ part.length) :
        ∃ found, nextMatch? isFooterLine lines (ruled + 1) limit = some found ∧
          found.elim (some ruled) (unitEnd? rule lines limit) =
            some (ruled + unitReach rule true part') := by
      have hfound := nextMatch?_append isFooterLine front' part' back hlimit'
      rw [← hwhole, ← hruled] at hfound
      refine ⟨_, hfound, elim_matchOffset_footer fun offset hoffset => ?_⟩
      have hlt := matchOffset_lt hoffset
      obtain ⟨hcut, hlength, hrest⟩ := cut_match hlt front' back
      rw [hwhole, hcut]
      exact ih _ (by omega) _ _ (by omega) (by omega) rfl
    have hrule := nextMatch?_append (isMarkLine rule) front part back hlimit
    rw [← hlast, hlines] at hrule
    -- The rule is optional: without one, the footer is looked for right behind the last line.
    have hsearch : ∃ found, nextMatch? isFooterLine lines
        (((matchOffset (isMarkLine rule) part).map (last + 1 + ·)).getD last + 1) limit =
          some found ∧
          found.elim (some (((matchOffset (isMarkLine rule) part).map (last + 1 + ·)).getD last))
            (unitEnd? rule lines limit) = some (last + unitReach rule false part) := by
      rw [unitReach_false]
      cases hoffset : matchOffset (isMarkLine rule) part with
      | none => exact hnext front part last hlines.symm hlast hlimit (Nat.le_refl _)
      | some offset =>
        obtain ⟨hcut, hlength, hrest⟩ := cut_match (matchOffset_lt hoffset) front back
        have hlt := matchOffset_lt hoffset
        have hfound := hnext (front ++ part.take (offset + 1)) (part.drop (offset + 1))
          (last + 1 + offset) (by rw [← hlines, hcut]) (by omega) (by omega) (by omega)
        have hcount : last + (offset + 1 + unitReach rule true (part.drop (offset + 1))) =
            last + 1 + offset + unitReach rule true (part.drop (offset + 1)) := by
          omega
        rw [Option.map_some, Option.getD_some, Option.elim_some, hcount]
        exact hfound
    obtain ⟨found, hfound, hend⟩ := hsearch
    rw [unitEnd?_of_nextMatch? hrule hfound, hend]

/-- A line without a bound in the loop over the buffer. -/
theorem footerSpansAt?_of_bound_none (hindex : index < lines.length)
    (hbound : bounds[index]? = some none) :
    footerSpansAt? rule bounds lines index = footerSpansAt? rule bounds lines (index + 1) := by
  rw [footerSpansAt?, if_pos hindex, hbound]

/-- A line in a section, which is no footer. -/
theorem footerSpansAt?_of_not_footer (hread : lines[index]? = some line)
    (hbound : bounds[index]? = some (some limit)) (hfooter : isFooterLine line = false) :
    footerSpansAt? rule bounds lines index = footerSpansAt? rule bounds lines (index + 1) := by
  rw [footerSpansAt?, if_pos (List.getElem?_eq_some_iff.mp hread).1, hbound, hread]
  simp only [hfooter, Bool.false_eq_true, if_false]

/-- A footer in a section. -/
theorem footerSpansAt?_of_unitEnd? {last : Nat} (hread : lines[index]? = some line)
    (hbound : bounds[index]? = some (some limit)) (hfooter : isFooterLine line = true)
    (hunit : unitEnd? rule lines limit index = some last) :
    footerSpansAt? rule bounds lines index =
      (footerSpansAt? rule bounds lines (last + 1)).map (⟨index, last⟩ :: ·) := by
  rw [footerSpansAt?, if_pos (List.getElem?_eq_some_iff.mp hread).1, hbound, hread]
  simp only [hfooter, if_true]
  split
  · next hnone =>
    rw [hunit] at hnone
    cases hnone
  · next hsome =>
    obtain rfl := Option.some.inj (hsome.symm.trans hunit)
    rfl

/-- The unit of a footer lies in the lines through its bound, and the loop goes on behind it. -/
theorem footerSpansAt?_of_footer (hbound : bounds[front.length]? = some (some limit))
    (hfooter : isFooterLine line = true) (hle : front.length ≤ limit)
    (hin : limit < (front ++ line :: rest).length) :
    footerSpansAt? rule bounds (front ++ line :: rest) front.length =
      (footerSpansAt? rule bounds (front ++ line :: rest)
        (front.length + unitReach rule false (rest.take (limit - front.length)) + 1)).map
          (⟨front.length,
            front.length + unitReach rule false (rest.take (limit - front.length))⟩ :: ·) := by
  rw [length_append_cons] at hin
  have hpart : (rest.take (limit - front.length)).length = limit - front.length :=
    List.length_take_of_le (by omega)
  have hfront : front.length + 1 = (front ++ [line]).length := by
    rw [List.length_append, List.length_singleton]
  have hwithin : limit + 1 =
      (front ++ [line]).length + (rest.take (limit - front.length)).length := by
    rw [← hfront, hpart]
    omega
  have hunit := unitEnd?_append rule (front ++ [line]) (rest.take (limit - front.length))
    (rest.drop (limit - front.length)) hfront hwithin
  rw [List.append_assoc (front ++ [line]), List.take_append_drop, List.append_assoc,
    List.singleton_append] at hunit
  exact footerSpansAt?_of_unitEnd? (getElem?_length_append front line rest) hbound hfooter hunit

/-- The loop finds the old footers, and reads bounds and lines of the buffer only. -/
theorem scanLoop_footerSpansAt? (rule : Line)
    (hbounds : ∀ index < lines.length, bounds[index]? = some (bound? index))
    (hlimit : ∀ index limit, bound? index = some limit → index ≤ limit ∧ limit < lines.length) :
    ScanLoop (footerReach? bound? rule) (footerSpansAt? rule bounds lines) lines where
  atEnd := by rw [footerSpansAt?, if_neg (Nat.lt_irrefl _)]
  stays := by
    rintro front line rest rfl hreach
    have hlt : front.length < (front ++ line :: rest).length := by simp
    have hread := getElem?_length_append front line rest
    have hhere := hbounds _ hlt
    rw [footerReach?] at hreach
    cases hbound : bound? front.length with
    | none =>
      rw [hbound] at hhere
      exact footerSpansAt?_of_bound_none hlt hhere
    | some limit =>
      rw [hbound] at hhere hreach
      cases hfooter : isFooterLine line with
      | false => exact footerSpansAt?_of_not_footer hread hhere hfooter
      | true =>
        rw [hfooter] at hreach
        cases hreach
  takes := by
    rintro front line rest reach rfl hreach
    obtain ⟨limit, hbound, hfooter, rfl⟩ := footerReach?_eq_some_iff.mp hreach
    obtain ⟨hle, hin⟩ := hlimit _ _ hbound
    have hhere := hbounds front.length (by simp)
    rw [hbound] at hhere
    refine ⟨Nat.le_trans (unitReach_le_length _ _ _) (List.length_take_le' _ _), [], _, rfl,
      fun _ => rfl, ?_⟩
    rw [footerSpansAt?_of_footer hhere hfooter hle hin, Nat.add_right_comm]
    rfl

/-! ### New footers -/

theorem line_shift_lt {place more : Nat} (h : head.line < count) :
    (head.shift place more).line < count + more := by
  rw [Heading.shift]
  split
  · exact Nat.add_lt_add_right h more
  · omega

theorem length_insertAt (h : index ≤ lines.length) (inserted : List Line) :
    (lines.insertAt index inserted).length = lines.length + inserted.length := by
  simp only [Buffer.insertAt, List.length_append, List.length_take, List.length_replicate,
    List.length_drop]
  omega

/-- Headings of a buffer stay headings within it when footers are put in. -/
theorem insertFooters_bounds (levels : List Nat) (rule : Line)
    (h : ∀ head ∈ heads, head.line < lines.length) :
    lines.length ≤ (insertFooters levels rule heads lines).1.length ∧
      ∀ head ∈ (insertFooters levels rule heads lines).2,
        head.line < (insertFooters levels rule heads lines).1.length := by
  induction heads with
  | nil => exact ⟨Nat.le_refl _, by simp [insertFooters]⟩
  | cons head heads ih =>
    obtain ⟨hhead, hheads⟩ := List.forall_mem_cons.mp h
    obtain ⟨hle, hlater⟩ := ih hheads
    rw [insertFooters]
    generalize insertFooters levels rule heads lines = footed at hle hlater
    obtain ⟨footed, later⟩ := footed
    dsimp only at hle hlater ⊢
    split
    · -- The lines put in move the headings below the section, and the lines grow by as many.
      have hend :=
        sectionEnd_lt (Nat.lt_of_lt_of_le (Nat.zero_lt_of_lt hhead) hle) hlater head.level
      dsimp only
      rw [length_insertAt hend]
      refine ⟨by omega, List.forall_mem_cons.mpr ⟨by omega, fun moved hmoved => ?_⟩⟩
      obtain ⟨old, hold, rfl⟩ := List.mem_map.mp hmoved
      exact line_shift_lt (hlater old hold)
    · exact ⟨hle, List.forall_mem_cons.mpr ⟨Nat.lt_of_lt_of_le hhead hle, hlater⟩⟩

theorem insertFooters_cons (levels : List Nat) (rule : Line) (head : Heading)
    (later : List Heading) (lines : Buffer) : insertFooters levels rule (head :: later) lines =
      footSection levels rule head (insertFooters levels rule later lines).2
        (insertFooters levels rule later lines).1 :=
  rfl

theorem footSection_of_not_level (hlevel : levels.contains head.level = false) :
    footSection levels rule head later lines = (lines, head :: later) :=
  if_neg (Bool.eq_false_iff.mp hlevel)

theorem footSection_of_level (hlevel : levels.contains head.level = true)
    (hlast : sectionEnd head.level later lines.length = last)
    (hclosing : lines[last]? = some closing) :
    footSection levels rule head later lines =
      (lines.insertAt (last + 1) (footerLines rule (isBlank closing)),
        head :: later.map (·.shift (last + 1) (footerLines rule (isBlank closing)).length)) := by
  rw [footSection, if_pos hlevel, hlast]
  simp only [hclosing, Option.getD_some]

theorem take_append_cons_drop (hhead : heads[position]? = some head) :
    heads.take position ++ head :: heads.drop (position + 1) = heads := by
  obtain ⟨hlt, rfl⟩ := List.getElem?_eq_some_iff.mp hhead
  rw [← List.drop_eq_getElem_cons hlt, List.take_append_drop]

namespace FooterLoop

/-- A round works on the heading that is visited and those behind it. -/
theorem round?_eq (hhead : heads[position]? = some head)
    (hend : sectionEnd head.level (heads.drop (position + 1)) lines.length < lines.length) :
    round? levels rule ⟨position + 1, heads, lines⟩ =
      some ⟨position,
        heads.take position ++
          (footSection levels rule head (heads.drop (position + 1)) lines).2,
        (footSection levels rule head (heads.drop (position + 1)) lines).1⟩ := by
  cases hlevel : levels.contains head.level with
  | false =>
    rw [footSection_of_not_level hlevel, take_append_cons_drop hhead]
    simp only [round?, hhead, hlevel, Option.bind_eq_bind, Option.bind_some, Bool.false_eq_true,
      if_false, Option.pure_def]
  | true =>
    have hclosing := List.getElem?_eq_getElem hend
    have htake : heads.take (position + 1) = heads.take position ++ [head] := by
      rw [List.take_add_one, hhead, Option.toList_some]
    rw [footSection_of_level hlevel rfl hclosing]
    simp only [round?, hhead, hlevel, if_true, sectionEndAt?, Option.map_some, hclosing,
      splice?_eq hend, htake, Option.bind_eq_bind, Option.bind_some, Option.pure_def,
      List.append_assoc, List.singleton_append]

/-- The rounds are those of the loop that puts the footers in. -/
theorem putFooters?_eq_rounds? (levels : List Nat) (rule : Line) (count : Nat)
    (heads : List Heading) (lines : Buffer) : putFooters? levels rule count heads lines =
      (rounds? levels rule count ⟨count, heads, lines⟩).map (·.lines) := by
  induction count generalizing heads lines with
  | zero => rfl
  | succ count ih =>
    simp only [putFooters?, rounds?, round?, Option.bind_eq_bind, Option.pure_def, Option.map_bind,
      Option.bind_assoc, Function.comp_def]
    refine congrArg (Option.bind _) (funext fun head => ?_)
    split
    · simp only [ih, Option.bind_assoc, Option.bind_some]
    · exact ih heads lines

end FooterLoop

/-- Working from the last heading to the first, every footer is put in within the buffer. -/
theorem putFooters?_append (levels : List Nat) (rule : Line)
    (h : ∀ head ∈ heads, head.line < lines.length) (above : List Heading) :
    putFooters? levels rule (above.length + heads.length) (above ++ heads) lines =
      putFooters? levels rule above.length (above ++ (insertFooters levels rule heads lines).2)
        (insertFooters levels rule heads lines).1 := by
  induction heads generalizing above with
  | nil => rfl
  | cons head heads ih =>
    obtain ⟨hhead, hheads⟩ := List.forall_mem_cons.mp h
    have hrest := ih hheads (above ++ [head])
    obtain ⟨hle, hlater⟩ := insertFooters_bounds levels rule hheads
    rw [List.length_append, List.length_singleton, List.append_assoc, List.singleton_append,
      List.append_assoc, List.singleton_append] at hrest
    have hcount : above.length + (head :: heads).length = above.length + 1 + heads.length := by
      rw [List.length_cons]
      omega
    rw [hcount, hrest, insertFooters_cons]
    generalize insertFooters levels rule heads lines = footed at hle hlater
    obtain ⟨footed, later⟩ := footed
    dsimp only at hle hlater ⊢
    have hread : (above ++ head :: later)[above.length]? = some head := by simp
    have hdrop : (above ++ head :: later).drop (above.length + 1) = later := by
      rw [← List.drop_drop, List.drop_left]
      rfl
    have hend := sectionEnd_lt (Nat.lt_of_lt_of_le (Nat.zero_lt_of_lt hhead) hle) hlater head.level
    -- The rounds go up from the last heading, so those below have their footers already.
    have hround : FooterLoop.round? levels rule
        ⟨above.length + 1, above ++ head :: later, footed⟩ =
          some ⟨above.length, above ++ (footSection levels rule head later footed).2,
            (footSection levels rule head later footed).1⟩ := by
      rw [FooterLoop.round?_eq hread (by rwa [hdrop]), hdrop, List.take_left]
    rw [FooterLoop.putFooters?_eq_rounds?, FooterLoop.rounds?, hround,
      FooterLoop.putFooters?_eq_rounds?]
    rfl

/-- Working through all headings of a buffer, every footer is put in within it. -/
theorem putFooters?_headings (levels : List Nat) (rule : Line) (lines : Buffer) :
    putFooters? levels rule (headings lines).length (headings lines) lines =
      some (insertFooters levels rule (headings lines) lines).1 := by
  have hinside : ∀ head ∈ headings lines, head.line < lines.length := fun head hhead => by
    simpa using line_lt_of_mem_headingsFrom hhead
  have hput := putFooters?_append levels rule hinside []
  rwa [List.length_nil, Nat.zero_add, List.nil_append] at hput

/-! ### The stages -/

theorem insertFooters_nil_levels (rule : Line) (heads : List Heading) (lines : Buffer) :
    insertFooters [] rule heads lines = (lines, heads) := by
  induction heads with
  | nil => rfl
  | cons head heads ih =>
    rw [insertFooters, ih]
    rfl

theorem footerSpans_of_bound_none {bound? : Nat → Option Nat} (h : ∀ index, bound? index = none)
    (rule : Line) (index : Nat) (lines : Buffer) :
    footerSpansFrom bound? rule 0 index lines = [] := by
  induction lines generalizing index with
  | nil => rfl
  | cons line lines ih =>
    rw [footerSpansFrom, h index]
    exact ih (index + 1)

/-- Without headings or without levels, no line lies in a section. -/
theorem sectionEndsAround_eq_nil_of_isEmpty (h : (heads.isEmpty || levels.isEmpty) = true)
    (count index : Nat) : sectionEndsAround levels count index heads = [] := by
  induction heads with
  | nil => rfl
  | cons head heads ih =>
    have hlevels : levels = [] := by simpa using h
    rw [sectionEndsAround, ih (by simp [hlevels]), hlevels]
    rfl

/-- Without headings or without levels, the stage leaves the buffer as it is. -/
theorem ensureFooters_of_isEmpty (h : ((headings lines).isEmpty || levels.isEmpty) = true)
    (rule : List Char) : ensureFooters lines levels rule = lines := by
  have hnone : footerSpans lines levels (ruleLine rule) = [] :=
    footerSpans_of_bound_none (fun index => by
      rw [sectionBound?, sectionEndsAround_eq_nil_of_isEmpty h]
      rfl) _ _ _
  have hkept : lines.without [] = lines := by rw [without_eq_keptFrom, keptFrom_nil]
  rw [ensureFooters, hnone, hkept]
  rcases Bool.or_eq_true_iff.mp h with hheads | hlevels
  · rw [List.isEmpty_iff.mp hheads]
    rfl
  · rw [List.isEmpty_iff.mp hlevels, insertFooters_nil_levels]

theorem tidySpans_footerSpans (lines : Buffer) (levels : List Nat) (rule : Line) :
    TidySpans (footerSpans lines levels rule) lines.length := by
  rw [footerSpans, footerSpansFrom_eq_scanSpans]
  apply tidySpans_scanSpans
  intro index line rest reach hreach
  obtain ⟨bound, -, -, rfl⟩ := footerReach?_eq_some_iff.mp hreach
  exact Nat.le_trans (unitReach_le_length _ _ _) (List.length_take_le' _ _)

/-- The stage of the footers stays in range. -/
theorem ensureFooters?_eq (lines : Buffer) (levels : List Nat) (rule : List Char) :
    ensureFooters? lines levels rule = some (ensureFooters lines levels rule) := by
  rw [ensureFooters?]
  cases hempty : (headings lines).isEmpty || levels.isEmpty with
  | true => simp [ensureFooters_of_isEmpty hempty]
  | false =>
    obtain ⟨bounds, hbounds, hread⟩ := exists_sectionBounds? levels (headings lines) lines.length
    have hspans : footerSpansAt? (ruleLine rule) bounds lines 0 =
        some (footerSpans lines levels (ruleLine rule)) := by
      rw [footerSpans, footerSpansFrom_eq_scanSpans]
      exact (scanLoop_footerSpansAt? (ruleLine rule) hread fun _ _ =>
        bounds_of_sectionBound?).eq_scanSpans [] lines rfl
    have htidy := tidySpans_footerSpans lines levels (ruleLine rule)
    -- Draining starts with the last span, so that the others keep their places.
    have hfalling : (footerSpans lines levels (ruleLine rule)).reverse.Pairwise
        fun span later => later.first ≤ span.first := by
      rw [List.pairwise_reverse, footerSpans, footerSpansFrom_eq_scanSpans]
      exact pairwise_first_scanSpans _ _ _ _
    have hreverse := List.reverse_perm (footerSpans lines levels (ruleLine rule))
    have hkept := drainAll?_eq (htidy.perm hreverse.symm) hfalling
    rw [without_perm hreverse] at hkept
    generalize hlines : lines.without (footerSpans lines levels (ruleLine rule)) = kept at hkept
    simp only [Bool.false_eq_true, if_false, Option.bind_eq_bind, Option.bind_some, hbounds, hspans,
      hkept, putFooters?_headings]
    rw [ensureFooters, hlines]

/-- Whatever the lines, the file name and the options are, no index, range or difference of indices
leaves the buffer, and the lines come out as they are to be. -/
theorem arrangeLines_inRange (lines : Buffer) (name : List Char) (options : Options) :
    arrangeLines? lines name options = some (arrangeLines lines name options) := by
  simp [arrangeLines?, arrangeLines, arrangeTop?_eq, ensureToc?_eq, ensureFooters?_eq]

end Waymark
