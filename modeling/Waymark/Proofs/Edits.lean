import Mathlib.Data.List.TakeWhile
import Waymark.Proofs.Top

/-!
# Edits in place

A note can also be arranged in place: lines are read, taken out and put in at indices that
were computed before, on a buffer that earlier edits have changed. Such an edit fails where
its index or its range does not lie in the buffer at that moment, and a difference of two
indices fails where it would be negative. Here every edit and every difference is checked,
and a failed check stops the whole arrangement.

The stages up to the anchor never fail, and they leave the buffer that they are to leave.
Spans that lie apart can be taken out one by one if the last one goes first.

## Main definitions

* `indexDiff?` — the difference of two indices
* `Buffer.splice?`, `Buffer.remove?`, `Buffer.drain?`, `Buffer.slice?` — edits and reads in range
* `Buffer.drainAll?` — several spans taken out one after the other
* `ScanLoop` — a loop over line indices that does at each line what a scan does
* `ensureFrontmatter?`, `ensureTitle?`, `ensureTopAnchor?` — the first stages in place

## Main results

* `drainAll?_eq` — spans taken out from the last to the first
* `ScanLoop.eq_scanSpans` — such a loop finds the spans of the scan
* `ensureTopAnchor?_eq` — the stage of the anchor stays in range
* `arrangeTop?_eq` — and so do all stages up to it
-/

namespace Waymark

/-- The difference of two indices, unless it would be negative. -/
def indexDiff? (index less : Nat) : Option Nat :=
  if less ≤ index then some (index - less) else none

namespace Buffer

/-- The buffer with lines put in at an index that is at most the end of the buffer. -/
def splice? (lines : Buffer) (index : Nat) (inserted : List Line) : Option Buffer :=
  if index ≤ lines.length then some (lines.take index ++ inserted ++ lines.drop index) else none

/-- The buffer with lines put in at an index. A buffer that ends before it is padded first. -/
def insertAt? (lines : Buffer) (index : Nat) (inserted : List Line) : Option Buffer :=
  if lines.length < index then
    (lines ++ List.replicate (index - lines.length) []).splice? index inserted
  else lines.splice? index inserted

/-- The buffer without the line at an index. -/
def remove? (lines : Buffer) (index : Nat) : Option Buffer :=
  if index < lines.length then some (lines.take index ++ lines.drop (index + 1)) else none

/-- The buffer without the lines of a span. -/
def drain? (lines : Buffer) (span : Span) : Option Buffer :=
  if span.first ≤ span.last + 1 ∧ span.last < lines.length then
    some (lines.take span.first ++ lines.drop (span.last + 1))
  else none

/-- The lines of a span. -/
def slice? (lines : Buffer) (span : Span) : Option (List Line) :=
  if span.first ≤ span.last + 1 ∧ span.last < lines.length then some (lines.linesOf span) else none

/-- The first lines of a buffer that has as many. -/
def upTo? (lines : Buffer) (count : Nat) : Option (List Line) :=
  if count ≤ lines.length then some (lines.take count) else none

/-- The buffer without the lines of the spans, which are taken out in the given order. -/
def drainAll? (lines : Buffer) (spans : List Span) : Option Buffer :=
  spans.foldlM drain? lines

end Buffer

/-! ### The first stages -/

/-- The frontmatter block, if there is one. The line of its opening fence is read by index. -/
def findFrontmatter? (lines : Buffer) : Option (Option Span) :=
  match lines.findIdx? (!isBlank ·) with
  | none => some none
  | some first => do
    let opening ← lines[first]?
    if isFence opening then
      return ((lines.drop (first + 1)).findIdx? isFence).map fun offset =>
        ⟨first, first + 1 + offset⟩
    else return none

/-- The stage of the frontmatter in place. -/
def ensureFrontmatter? (lines : Buffer) (create : Bool) : Option (Buffer × Option Nat) := do
  match ← findFrontmatter? lines with
  | some span => return (lines, some span.last)
  | none =>
    if create then return (← lines.insertAt? 0 emptyFrontmatter, some 1) else return (lines, none)

/-- An empty line at `index` in place, if a line that is not empty stands there. -/
def ensureEmptyAt? (lines : Buffer) (index : Nat) : Option Buffer :=
  if isFilledAt lines index then lines.splice? index [[]] else some lines

/-- The stage of the title in place. -/
def ensureTitle? (lines : Buffer) (fence : Option Nat) (name : List Char) (pretty : Bool) :
    Option (Buffer × Nat × List Char) := do
  let start := fence.elim 0 (· + 1)
  match findTitle lines start with
  | some (index, title) => return (lines, index, title)
  | none =>
    let title := titleOfName name pretty
    let lines ← ensureEmptyAt? lines start
    return (← lines.insertAt? (start + 1) [titleLine title, []], start + 1, title)

/-- The indices of the anchors among the lines, the first line having the given index. -/
def anchorPositions (index : Nat) (lines : List Line) : List Nat :=
  ((lines.zipIdx index).filter (·.1 == topAnchor)).map (·.2)

/-- The anchor at `position` is taken out unless it stands at `index`. The second component is the
place of the one anchor; it moves up with every line that goes above `index`. -/
def removeStray? (index position : Nat) (state : Buffer × Nat) : Option (Buffer × Nat) :=
  if position = index then some state
  else do
    let lines ← state.1.remove? position
    if position < index then return (lines, ← indexDiff? state.2 1) else return (lines, state.2)

/-- The stage of the anchor in place. Strays are taken out from the last to the first. -/
def ensureTopAnchor? (lines : Buffer) (index : Nat) : Option (Buffer × Nat) := do
  let strays := (anchorPositions 0 lines).reverse
  let (lines, target) ← strays.foldlM (fun state position => removeStray? index position state)
    (lines, index)
  let lines ←
    if lines[target]? = some topAnchor then some lines else lines.insertAt? target [topAnchor]
  return (← ensureEmptyAt? lines (target + 1), target)

/-- The stages up to the anchor in place. -/
def arrangeTop? (lines : Buffer) (name : List Char) (options : Options) :
    Option (Buffer × Nat) := do
  let (lines, fence) ← ensureFrontmatter? lines options.createFrontmatter
  let (lines, title, _) ← ensureTitle? lines fence name options.prettifyTitle
  let lines ← ensureEmptyAt? lines (title + 1)
  ensureTopAnchor? lines (title + 2)

variable {lines front back rest : Buffer} {line : Line} {spans spans' : List Span} {span : Span}
variable {index less count : Nat} {inserted : List Line}

/-! ### Single edits -/

theorem indexDiff?_eq (h : less ≤ index) : indexDiff? index less = some (index - less) :=
  if_pos h

theorem splice?_eq (h : index ≤ lines.length) (inserted : List Line) :
    lines.splice? index inserted = some (lines.insertAt index inserted) := by
  have hpad : index - lines.length = 0 := Nat.sub_eq_zero_of_le h
  rw [Buffer.splice?, if_pos h, Buffer.insertAt, hpad, List.replicate_zero, List.append_nil]

/-- Behind padding, an insertion is never out of range. -/
theorem insertAt?_eq (lines : Buffer) (index : Nat) (inserted : List Line) :
    lines.insertAt? index inserted = some (lines.insertAt index inserted) := by
  rw [Buffer.insertAt?]
  split
  · next hshort =>
    have hlength : (lines ++ List.replicate (index - lines.length) ([] : Line)).length = index := by
      rw [List.length_append, List.length_replicate]
      omega
    rw [Buffer.splice?, if_pos (Nat.le_of_eq hlength.symm), List.take_of_length_le (by omega),
      List.drop_of_length_le (by omega), Buffer.insertAt, List.take_of_length_le (by omega),
      List.drop_of_length_le (by omega)]
  · next hlong => exact splice?_eq (Nat.le_of_not_lt hlong) inserted

theorem remove?_length (front : Buffer) (line : Line) (rest : Buffer) :
    (front ++ line :: rest).remove? front.length = some (front ++ rest) := by
  have hlt : front.length < (front ++ line :: rest).length := by simp
  have hdrop : (front ++ line :: rest).drop (front.length + 1) = rest := by
    rw [← List.drop_drop, List.drop_left]
    rfl
  rw [Buffer.remove?, if_pos hlt, List.take_left, hdrop]

theorem slice?_eq (hspan : span.first ≤ span.last) (hlast : span.last < lines.length) :
    lines.slice? span = some (lines.linesOf span) :=
  if_pos ⟨by omega, hlast⟩

theorem upTo?_eq (h : count ≤ lines.length) : lines.upTo? count = some (lines.take count) :=
  if_pos h

theorem ensureEmptyAt?_eq (lines : Buffer) (index : Nat) :
    ensureEmptyAt? lines index = some (ensureEmptyAt lines index) := by
  rw [ensureEmptyAt?, ensureEmptyAt]
  split
  · next hfilled =>
    have hlt : index < lines.length := by
      by_contra hout
      rw [isFilledAt, List.getElem?_eq_none (Nat.le_of_not_lt hout)] at hfilled
      cases hfilled
    exact splice?_eq (Nat.le_of_lt hlt) [[]]
  · rfl

/-! ### Several spans -/

theorem keptFrom_eq_nil
    (h : ∀ i, index ≤ i → i < index + lines.length → coversLine spans i = true) :
    keptFrom spans index lines = [] := by
  induction lines generalizing index with
  | nil => rfl
  | cons line lines ih =>
    have hhere := h index (Nat.le_refl _) (by simp)
    rw [keptFrom, if_pos hhere]
    apply ih
    intro i hle hlt
    exact h i (by omega) (by rw [List.length_cons]; omega)

theorem without_perm (h : spans.Perm spans') (lines : Buffer) :
    lines.without spans = lines.without spans' := by
  rw [without_eq_keptFrom, without_eq_keptFrom]
  refine keptFrom_congr fun i _ _ => ?_
  rw [coversLine, coversLine, Bool.eq_iff_iff, List.any_eq_true, List.any_eq_true]
  simp only [h.mem_iff]

theorem TidySpans.perm {bound : Nat} (h : TidySpans spans bound) (hperm : spans.Perm spans') :
    TidySpans spans' bound where
  apart := (hperm.pairwise_iff Span.Apart.symm).mp h.apart
  ordered := fun span hspan => h.ordered span (hperm.mem_iff.mpr hspan)
  bounded := fun span hspan => h.bounded span (hperm.mem_iff.mpr hspan)

/-- The lowest of some spans can be taken out first: the others lie above it and keep their
place. -/
theorem without_cons_of_above (hspan : span.first ≤ span.last) (hlast : span.last < lines.length)
    (habove : TidySpans spans span.first) : lines.without (span :: spans) =
      Buffer.without (lines.take span.first ++ lines.drop (span.last + 1)) spans := by
  have hfront : (lines.take span.first).length = span.first := List.length_take_of_le (by omega)
  have hmiddle := length_linesOf hlast
  -- The lines above the span, in it and below it are compared in turn.
  have hkept : keptFrom (span :: spans) 0 (lines.take span.first) =
      keptFrom spans 0 (lines.take span.first) := by
    refine keptFrom_congr fun i _ hi => ?_
    rw [coversLine_cons, Span.contains_eq_false_iff.mpr (by omega), Bool.false_or]
  have hgone : keptFrom (span :: spans) span.first (lines.linesOf span) = [] := by
    refine keptFrom_eq_nil fun i hle hi => ?_
    rw [coversLine_cons, Span.contains_iff.mpr (by omega), Bool.true_or]
  have hbehind : keptFrom (span :: spans) (span.last + 1) (lines.drop (span.last + 1)) =
      lines.drop (span.last + 1) := by
    refine keptFrom_eq_self fun i hle _ => ?_
    rw [coversLine_cons, Span.contains_eq_false_iff.mpr (by omega),
      coversLine_eq_false_of_le habove (by omega), Bool.false_or]
  have hbelow : keptFrom spans span.first (lines.drop (span.last + 1)) =
      lines.drop (span.last + 1) :=
    keptFrom_eq_self fun i hle _ => coversLine_eq_false_of_le habove hle
  have hindex : span.first + (span.last + 1 - span.first) = span.last + 1 := by omega
  rw [without_eq_keptFrom, without_eq_keptFrom]
  conv => lhs; rw [← take_append_linesOf_append_drop hspan lines]
  rw [keptFrom_append, keptFrom_append, keptFrom_append, hfront, hmiddle, Nat.zero_add, hindex,
    hkept, hgone, hbehind, hbelow, List.nil_append]

/-- Spans that lie apart can be taken out one after the other, from the last to the first. -/
theorem drainAll?_eq (h : TidySpans spans lines.length)
    (hfalling : spans.Pairwise fun span later => later.first ≤ span.first) :
    lines.drainAll? spans = some (lines.without spans) := by
  induction spans generalizing lines with
  | nil => rw [without_eq_keptFrom, keptFrom_nil]; rfl
  | cons span spans ih =>
    obtain ⟨hfirsts, hfalling⟩ := List.pairwise_cons.mp hfalling
    obtain ⟨haparts, hapart⟩ := List.pairwise_cons.mp h.apart
    obtain ⟨hspan, hordered⟩ := List.forall_mem_cons.mp h.ordered
    obtain ⟨hlast, -⟩ := List.forall_mem_cons.mp h.bounded
    have habove : TidySpans spans span.first := ⟨hapart, hordered, fun other hother =>
      (haparts other hother).symm.last_lt (hfirsts other hother) hspan⟩
    have hshorter : span.first ≤ (lines.take span.first ++ lines.drop (span.last + 1)).length := by
      rw [List.length_append, List.length_take_of_le (by omega)]
      omega
    have hrest := ih ⟨habove.apart, habove.ordered, fun other hother =>
      Nat.lt_of_lt_of_le (habove.bounded other hother) hshorter⟩ hfalling
    rw [without_cons_of_above hspan hlast habove, ← hrest, Buffer.drainAll?, List.foldlM_cons,
      Buffer.drain?, if_pos ⟨by omega, hlast⟩]
    rfl

-- In the other order, the first edit moves the lines that the second one is meant for.
example : Buffer.drainAll? [[], []] [.single 0, .single 1] = none := by decide

/-- A scan goes on behind the lines of the span that it has found. -/
theorem scanSpans_eq_drop (reach? : Nat → Line → List Line → Option Nat) {inside : Nat}
    (h : inside ≤ lines.length) (index : Nat) :
    scanSpans reach? inside index lines =
      scanSpans reach? 0 (index + inside) (lines.drop inside) := by
  induction lines generalizing inside index with
  | nil => simp [scanSpans]
  | cons line lines ih =>
    cases inside with
    | zero => rfl
    | succ inside =>
      rw [List.drop_succ_cons, ← Nat.add_assoc, Nat.add_right_comm]
      exact ih (Nat.le_of_succ_le_succ h) (index + 1)

/-- A scan finds the spans from the first to the last. -/
theorem pairwise_first_scanSpans (reach? : Nat → Line → List Line → Option Nat) (inside index : Nat)
    (lines : Buffer) :
    (scanSpans reach? inside index lines).Pairwise fun span later => span.first ≤ later.first := by
  induction lines generalizing inside index with
  | nil => exact List.Pairwise.nil
  | cons line lines ih =>
    cases inside with
    | succ inside => exact ih _ _
    | zero =>
      rw [scanSpans]
      split
      · refine List.pairwise_cons.mpr ⟨fun later hlater => ?_, ih _ _⟩
        have := (of_mem_scanSpans hlater).1
        dsimp only
        omega
      · exact ih _ _

/-- What a loop over line indices does at each line of a buffer, told beside a scan. Behind the
lines that a span reaches over, the loop may pass over further ones in which no span starts. -/
structure ScanLoop (reach? : Nat → Line → List Line → Option Nat) (loop : Nat → Option (List Span))
    (whole : Buffer) : Prop where
  /-- Behind the last line there are no spans left. -/
  atEnd : loop whole.length = some []
  /-- The loop goes on with the next line where no span starts. -/
  stays : ∀ {front line rest}, whole = front ++ line :: rest →
    reach? front.length line rest = none → loop front.length = loop (front.length + 1)
  /-- The loop goes on behind a span that it has found, and behind the lines passed over. -/
  takes : ∀ {front line rest reach}, whole = front ++ line :: rest →
    reach? front.length line rest = some reach →
      reach ≤ rest.length ∧ ∃ passed below, rest.drop reach = passed ++ below ∧
        (∀ index, scanSpans reach? 0 index (passed ++ below) =
          scanSpans reach? 0 (index + passed.length) below) ∧
        loop front.length = (loop (front.length + 1 + reach + passed.length)).map
          (⟨front.length, front.length + reach⟩ :: ·)

/-- Such a loop finds the spans of the scan. -/
theorem ScanLoop.eq_scanSpans {reach? : Nat → Line → List Line → Option Nat}
    {loop : Nat → Option (List Span)} {whole : Buffer} (h : ScanLoop reach? loop whole)
    (front rest : Buffer) (hwhole : whole = front ++ rest) :
    loop front.length = some (scanSpans reach? 0 front.length rest) := by
  -- A span may take several lines at once, so the induction is on the number of lines left.
  induction hcount : rest.length using Nat.strong_induction_on generalizing front rest with
  | _ count ih =>
    subst hcount
    cases rest with
    | nil =>
      rw [List.append_nil] at hwhole
      rw [← hwhole, h.atEnd, scanSpans]
    | cons line rest =>
      rw [scanSpans]
      cases hreach : reach? front.length line rest with
      | none =>
        have hnext := ih rest.length (Nat.lt_succ_self _) (front ++ [line]) rest
          (by rw [hwhole, List.append_assoc, List.singleton_append]) rfl
        rw [List.length_append, List.length_singleton] at hnext
        rw [h.stays hwhole hreach, hnext]
      | some reach =>
        obtain ⟨hle, passed, below, hdrop, hquiet, hloop⟩ := h.takes hwhole hreach
        have hcut : whole = front ++ line :: (rest.take reach ++ passed) ++ below := by
          rw [hwhole, List.append_assoc, List.cons_append, List.append_assoc, ← hdrop,
            List.take_append_drop]
        have hlength : (front ++ line :: (rest.take reach ++ passed)).length =
            front.length + 1 + reach + passed.length := by
          rw [length_append_cons, List.length_append, List.length_take_of_le hle, ← Nat.add_assoc]
        have hshort : below.length < (line :: rest).length := by
          have hbehind := congrArg List.length hdrop
          rw [List.length_drop, List.length_append] at hbehind
          rw [List.length_cons]
          omega
        have hlater := ih below.length hshort (front ++ line :: (rest.take reach ++ passed)) below
          hcut rfl
        rw [hlength] at hlater
        dsimp only
        rw [hloop, hlater, scanSpans_eq_drop reach? hle, hdrop, hquiet]
        rfl

/-! ### Up to the title -/

theorem findFrontmatter?_eq (lines : Buffer) :
    findFrontmatter? lines = some (findFrontmatter lines) := by
  rw [findFrontmatter?, findFrontmatter]
  cases hfind : lines.findIdx? (!isBlank ·) with
  | none =>
    have hblank : lines.dropWhile isBlank = [] := by
      refine List.dropWhile_eq_nil_iff.mpr fun line hline => ?_
      simpa using List.findIdx?_eq_none_iff.mp hfind line hline
    rw [hblank]
  | some first =>
    obtain ⟨blanks, opening, rest, rfl, hblanks, hopening, rfl⟩ :=
      findIdx?_eq_some_iff_append.mp hfind
    have hblank : ∀ line ∈ blanks, isBlank line = true := fun line hline => by
      simpa using hblanks line hline
    have hvisible : isBlank opening = false := by simpa using hopening
    have hread : (blanks ++ opening :: rest)[blanks.length]? = some opening := by simp
    have hrest : (blanks ++ opening :: rest).drop (blanks.length + 1) = rest := by
      rw [← List.drop_drop, List.drop_left]
      rfl
    rw [dropWhile_isBlank_append hblank hvisible, takeWhile_isBlank_append hblank hvisible]
    simp only [hread, hrest, Option.bind_eq_bind, Option.bind_some, Option.pure_def]
    split <;> rfl

theorem ensureFrontmatter?_eq (lines : Buffer) (create : Bool) :
    ensureFrontmatter? lines create = some (ensureFrontmatter lines create) := by
  rw [ensureFrontmatter?, findFrontmatter?_eq, ensureFrontmatter]
  cases findFrontmatter lines with
  | some span => rfl
  | none =>
    cases create with
    | false => rfl
    | true =>
      have htop : lines.insertAt 0 emptyFrontmatter = emptyFrontmatter ++ lines := by
        simp [Buffer.insertAt]
      simp [insertAt?_eq, htop]

theorem ensureTitle?_eq (lines : Buffer) (fence : Option Nat) (name : List Char) (pretty : Bool) :
    ensureTitle? lines fence name pretty = some (ensureTitle lines fence name pretty) := by
  rw [ensureTitle?, ensureTitle]
  cases hfind : findTitle lines (fence.elim 0 (· + 1)) with
  | some found => rfl
  | none => simp [ensureEmptyAt?_eq, insertAt?_eq]

/-! ### The anchor -/

theorem anchorPositions_cons (index : Nat) (line : Line) (lines : Buffer) :
    anchorPositions index (line :: lines) =
      if line = topAnchor then index :: anchorPositions (index + 1) lines
      else anchorPositions (index + 1) lines := by
  rw [anchorPositions, List.zipIdx_cons, List.filter_cons]
  by_cases hline : line = topAnchor
  · rw [if_pos hline, if_pos (by simpa using hline)]
    rfl
  · rw [if_neg hline, if_neg (by simpa using hline)]
    rfl

theorem removeStray?_self (index : Nat) (state : Buffer × Nat) :
    removeStray? index index state = some state :=
  if_pos rfl

theorem removeStray?_below (h : index < front.length) (line : Line) (rest : Buffer) (target : Nat) :
    removeStray? index front.length (front ++ line :: rest, target) =
      some (front ++ rest, target) := by
  rw [removeStray?, if_neg (by omega), remove?_length]
  simp [Nat.not_lt_of_lt h]

theorem removeStray?_above {target : Nat} (h : front.length < index) (htarget : 1 ≤ target)
    (line : Line) (rest : Buffer) :
    removeStray? index front.length (front ++ line :: rest, target) =
      some (front ++ rest, target - 1) := by
  rw [removeStray?, if_neg (by omega), remove?_length]
  simp [h, indexDiff?_eq htarget]

/-- Below the place of the anchor, every anchor goes. -/
theorem foldrM_removeStray?_below (h : index < front.length) (rest : Buffer) (target : Nat) :
    (anchorPositions front.length rest).foldrM (removeStray? index) (front ++ rest, target) =
      some (front ++ withoutAnchors rest, target) := by
  induction rest generalizing front with
  | nil => rfl
  | cons line rest ih =>
    have hlater := @ih (front ++ [line]) (by rw [List.length_append]; omega)
    rw [List.length_append, List.length_singleton, List.append_assoc, List.append_assoc,
      List.singleton_append, List.singleton_append] at hlater
    rw [anchorPositions_cons]
    by_cases hline : line = topAnchor
    · have hgone : withoutAnchors (line :: rest) = withoutAnchors rest :=
        List.filter_cons_of_neg (by simp [hline])
      rw [if_pos hline, List.foldrM_cons, hlater, hgone]
      exact removeStray?_below h line _ target
    · rw [if_neg hline, hlater, withoutAnchors_cons_of_ne hline]

theorem anchorsAbove_succ (line : Line) (rest : Buffer) (count : Nat) :
    anchorsAbove (line :: rest) (count + 1) =
      anchorsAbove rest count + if line = topAnchor then 1 else 0 := by
  rw [anchorsAbove, List.take_succ_cons, List.count_cons, anchorsAbove]
  simp

theorem anchorsAbove_le (lines : Buffer) (index : Nat) : anchorsAbove lines index ≤ index :=
  Nat.le_trans List.count_le_length (List.length_take_le _ _)

theorem withoutStrayAnchors_succ (line : Line) (rest : Buffer) (count : Nat) :
    withoutStrayAnchors (line :: rest) (count + 1) =
      withoutAnchors [line] ++ withoutStrayAnchors rest count := by
  have hfilter : (line :: rest.take count).filter (· != topAnchor) =
      [line].filter (· != topAnchor) ++ (rest.take count).filter (· != topAnchor) :=
    List.filter_append [line] (rest.take count)
  rw [withoutStrayAnchors, List.take_succ_cons, List.drop_succ_cons, List.drop_succ_cons, hfilter,
    List.append_assoc, List.append_assoc, ← List.append_assoc (List.filter _ (rest.take count))]
  rfl

/-- At and above the place of the anchor, every other anchor goes, and the place moves up. -/
theorem foldrM_removeStray? (h : front.length ≤ index) (rest : Buffer) :
    (anchorPositions front.length rest).foldrM (removeStray? index) (front ++ rest, index) =
      some (front ++ withoutStrayAnchors rest (index - front.length),
        index - anchorsAbove rest (index - front.length)) := by
  induction rest generalizing front with
  | nil => simp [anchorPositions, withoutStrayAnchors, anchorsAbove]
  | cons line rest ih =>
    rcases Nat.lt_or_eq_of_le h with habove | rfl
    · have hlater := @ih (front ++ [line]) (by rw [List.length_append]; exact habove)
      rw [List.length_append, List.length_singleton, List.append_assoc, List.append_assoc,
        List.singleton_append, List.singleton_append] at hlater
      have hcount : index - front.length = index - (front.length + 1) + 1 := by omega
      have htaken := anchorsAbove_le rest (index - (front.length + 1))
      rw [anchorPositions_cons, hcount, anchorsAbove_succ, withoutStrayAnchors_succ]
      by_cases hline : line = topAnchor
      · have hgone : withoutAnchors [line] = [] := List.filter_cons_of_neg (by simp [hline])
        rw [if_pos hline, if_pos hline, List.foldrM_cons, hlater, hgone,
          ← Nat.sub_sub index (anchorsAbove rest (index - (front.length + 1)))]
        exact removeStray?_above habove (by omega) line _
      · have hkept : withoutAnchors [line] = [line] := withoutAnchors_cons_of_ne hline
        rw [if_neg hline, if_neg hline, hlater, hkept]
        rfl
    · -- The line stands where the anchor belongs, so it stays in any case.
      have hbelow : front.length < (front ++ [line]).length := by
        rw [List.length_append]
        exact Nat.lt_succ_self _
      have hlater := foldrM_removeStray?_below hbelow rest front.length
      rw [List.length_append, List.length_singleton, List.append_assoc, List.append_assoc,
        List.singleton_append, List.singleton_append] at hlater
      have hstays : withoutStrayAnchors (line :: rest) 0 = line :: withoutAnchors rest := rfl
      have hnone : anchorsAbove (line :: rest) 0 = 0 := rfl
      rw [anchorPositions_cons, Nat.sub_self, hstays, hnone]
      split
      · rw [List.foldrM_cons, hlater]
        exact removeStray?_self front.length _
      · exact hlater

/-- The stage of the anchor stays in range. -/
theorem ensureTopAnchor?_eq (lines : Buffer) (index : Nat) :
    ensureTopAnchor? lines index = some (ensureTopAnchor lines index) := by
  have hstart : ([] : Buffer).length ≤ index := Nat.zero_le index
  have hstrays : (anchorPositions 0 lines).foldrM (removeStray? index) (lines, index) =
      some (withoutStrayAnchors lines index, index - anchorsAbove lines index) :=
    foldrM_removeStray? hstart lines
  rw [ensureTopAnchor?, List.foldlM_reverse, hstrays, ensureTopAnchor]
  simp only [Option.bind_eq_bind, Option.bind_some, ensureAnchorAt, insertAt?_eq, ensureEmptyAt?_eq,
    Option.pure_def]
  split <;> rfl

/-- All stages up to the anchor stay in range. -/
theorem arrangeTop?_eq (lines : Buffer) (name : List Char) (options : Options) :
    arrangeTop? lines name options = some (arrangeTop lines name options) := by
  simp [arrangeTop?, arrangeTop, ensureFrontmatter?_eq, ensureTitle?_eq, ensureEmptyAt?_eq,
    ensureTopAnchor?_eq, ensureEmptyAfter]

end Waymark
