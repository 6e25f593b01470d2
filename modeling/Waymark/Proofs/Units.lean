import Waymark.Proofs.Placing

/-!
# Which footers go

Whether an old footer goes depends on the sections around it, which the program reads off
the indices of all headings. A pass from the first line to the last gets by with the level
of the outermost open section: that section reaches furthest, so it bounds how far a footer
may take lines with it.

## Main definitions

* `nextCover` — the outermost open section behind a line
* `sectionPart` — the lines before the first one that ends a section
* `keptLines` — the lines that stay when the footers in sections go

## Main results

* `sectionBound?_append` — the bound around a line is the end of the outermost open section
* `without_footerSpans` — the lines that the program leaves
-/

namespace Waymark

/-- The level of the outermost open section of a configured level behind a line. -/
def nextCover (levels : List Nat) (cover : Option Nat) (line : Line) : Option Nat :=
  match headingOfLine? line with
  | some (level, _) =>
    (cover.filter (· < level)).or (if levels.contains level then some level else none)
  | none => cover

/-- The lines before the first one that ends a section of the given level. -/
def sectionPart (level : Nat) (lines : Buffer) : Buffer :=
  lines.takeWhile (!endsSection level ·)

/-- The lines that stay when the footers in sections of a configured level go. The outermost
section that is open around the lines has the level `cover`, and the first `inside` lines belong
to a footer found before. -/
def keptLines (levels : List Nat) (rule : Line) (cover : Option Nat) (inside : Nat) :
    List Line → List Line
  | [] => []
  | line :: rest =>
    match inside with
    | inside + 1 => keptLines levels rule (nextCover levels cover line) inside rest
    | 0 =>
      match cover, isFooterLine line with
      | some level, true =>
        keptLines levels rule cover (unitReach rule false (sectionPart level rest)) rest
      | _, _ => line :: keptLines levels rule (nextCover levels cover line) 0 rest

/-- The open sections behind the lines. -/
def openAfter (levels : List Nat) (opened : List Nat) (lines : Buffer) : List Nat :=
  lines.foldl (nextOpened levels) opened

/-- The outermost open section behind the lines. -/
def coverAfter (levels : List Nat) (cover : Option Nat) (lines : Buffer) : Option Nat :=
  lines.foldl (nextCover levels) cover

/-- The sections of a configured level that the lines open and do not end. -/
def pendingLevels (levels : List Nat) : List Line → List Nat
  | [] => []
  | line :: rest =>
    match headingOfLine? line with
    | some (level, _) =>
      if levels.contains level && !rest.any (endsSection level) then
        level :: pendingLevels levels rest
      else pendingLevels levels rest
    | none => pendingLevels levels rest

variable {levels opened : List Nat} {rule line : Line} {level index : Nat} {cover : Option Nat}
variable {lines front back rest : Buffer} {inside : Nat}

/-! ### The outermost open section -/

theorem nextCover_of_not_heading (h : isHeadingLine line = false) :
    nextCover levels cover line = cover := by
  rw [nextCover, isHeadingLine_eq_false_iff.mp h]

theorem nextCover_of_heading {text : List Char} (h : headingOfLine? line = some (level, text)) :
    nextCover levels cover line =
      (cover.filter (· < level)).or (if levels.contains level then some level else none) := by
  rw [nextCover, h]

/-- The outermost open section is the first one. -/
theorem head?_nextOpened (h : opened.Pairwise (· < ·)) (line : Line) :
    (nextOpened levels opened line).head? = nextCover levels opened.head? line := by
  cases hline : headingOfLine? line with
  | none =>
    have hplain := isHeadingLine_eq_false_iff.mpr hline
    rw [nextOpened_of_not_heading hplain, nextCover_of_not_heading hplain]
  | some pair =>
    rw [nextOpened_of_heading hline, nextCover_of_heading hline, List.head?_append]
    have hnew : (if levels.contains pair.1 then [pair.1] else []).head? =
        if levels.contains pair.1 then some pair.1 else none := by
      split <;> rfl
    rw [hnew]
    congr 1
    cases opened with
    | nil => rfl
    | cons outer opened =>
      obtain ⟨houter, -⟩ := List.pairwise_cons.mp h
      by_cases hlt : outer < pair.1
      · rw [List.filter_cons_of_pos (by simpa using hlt)]
        simp [Option.filter, hlt]
      · -- The outermost section ends, and with it all that are deeper.
        have hnone : opened.filter (· < pair.1) = [] := by
          rw [List.filter_eq_nil_iff]
          intro inner hinner
          have := houter inner hinner
          simp only [decide_eq_true_eq]
          omega
        rw [List.filter_cons_of_neg (by simpa using hlt), hnone]
        simp [Option.filter, hlt]

theorem pairwise_openAfter (h : opened.Pairwise (· < ·)) (lines : Buffer) :
    (openAfter levels opened lines).Pairwise (· < ·) := by
  induction lines generalizing opened with
  | nil => exact h
  | cons line lines ih => exact ih (pairwise_nextOpened h line)

theorem head?_openAfter (h : opened.Pairwise (· < ·)) (lines : Buffer) :
    (openAfter levels opened lines).head? = coverAfter levels opened.head? lines := by
  induction lines generalizing opened with
  | nil => rfl
  | cons line lines ih =>
    rw [openAfter, List.foldl_cons, coverAfter, List.foldl_cons, ← head?_nextOpened h line]
    exact ih (pairwise_nextOpened h line)

theorem coverAfter_append (cover : Option Nat) (front : Buffer) (line : Line) :
    coverAfter levels cover (front ++ [line]) =
      nextCover levels (coverAfter levels cover front) line := by
  rw [coverAfter, List.foldl_append]
  rfl

/-- The open sections behind some lines: those from above that no line ends, then those that
the lines open. -/
theorem openAfter_eq (levels opened : List Nat) (lines : Buffer) :
    openAfter levels opened lines =
      opened.filter (fun level => !lines.any (endsSection level)) ++
        pendingLevels levels lines := by
  induction lines generalizing opened with
  | nil => simp [openAfter, pendingLevels]
  | cons line lines ih =>
    have hstep : openAfter levels opened (line :: lines) =
        openAfter levels (nextOpened levels opened line) lines := rfl
    rw [hstep, ih, pendingLevels]
    cases hline : headingOfLine? line with
    | none =>
      have hplain := isHeadingLine_eq_false_iff.mpr hline
      simp [nextOpened_of_not_heading hplain, endsSection_eq_false hplain]
    | some pair =>
      obtain ⟨found, text⟩ := pair
      have hends : ∀ level, endsSection level line = decide (found ≤ level) :=
        fun _ => endsSection_of_headingOfLine? hline
      -- A section from above goes on below the heading if neither it nor a later line ends it.
      have hfilter : opened.filter (fun level => !(line :: lines).any (endsSection level)) =
          (opened.filter (· < found)).filter fun level => !lines.any (endsSection level) := by
        rw [List.filter_filter]
        refine List.filter_congr fun level _ => ?_
        rw [List.any_cons, hends, Bool.not_or, Bool.and_comm]
        by_cases hle : found ≤ level
        · simp [hle]
        · simp [hle, Nat.lt_of_not_le hle]
      rw [nextOpened_of_heading hline, List.filter_append, hfilter, List.append_assoc]
      congr 1
      dsimp only
      cases levels.contains found with
      | false => rfl
      | true => cases hany : lines.any (endsSection found) <;> simp [hany]

/-! ### The bound around a line -/

theorem sectionPart_cons_of_ends (h : endsSection level line = true) (lines : Buffer) :
    sectionPart level (line :: lines) = [] :=
  List.takeWhile_cons_of_neg (by simp [h])

theorem sectionPart_cons_of_stays (h : endsSection level line = false) (lines : Buffer) :
    sectionPart level (line :: lines) = line :: sectionPart level lines :=
  List.takeWhile_cons_of_pos (by simp [h])

theorem sectionPart_append (level : Nat) (front back : Buffer)
    (h : front.any (endsSection level) = false) :
    sectionPart level (front ++ back) = front ++ sectionPart level back := by
  refine List.takeWhile_append_of_pos fun line hline => ?_
  rw [List.any_eq_false] at h
  simpa using h line hline

theorem length_sectionPart_lt (level : Nat) (front back : Buffer)
    (h : front.any (endsSection level) = true) :
    (sectionPart level (front ++ back)).length < front.length := by
  induction front with
  | nil => cases h
  | cons line front ih =>
    rw [List.cons_append, List.length_cons]
    cases hline : endsSection level line with
    | true =>
      rw [sectionPart_cons_of_ends hline]
      exact Nat.succ_pos _
    | false =>
      rw [List.any_cons, hline, Bool.false_or] at h
      rw [sectionPart_cons_of_stays hline, List.length_cons]
      exact Nat.succ_lt_succ (ih h)

/-- A section that a line or one above it ends does not reach below the line. -/
theorem length_sectionPart_le_of_ends (h : (front ++ [line]).any (endsSection level) = true)
    (rest : Buffer) : (sectionPart level (front ++ line :: rest)).length ≤ front.length := by
  have hlt := length_sectionPart_lt level (front ++ [line]) rest h
  rw [List.append_assoc, List.singleton_append, List.length_append, List.length_singleton] at hlt
  exact Nat.le_of_lt_succ hlt

/-- A section that neither a line nor one above it ends goes on below the line. -/
theorem length_sectionPart_of_stays (h : (front ++ [line]).any (endsSection level) = false)
    (rest : Buffer) : (sectionPart level (front ++ line :: rest)).length =
      front.length + 1 + (sectionPart level rest).length := by
  have hpart := sectionPart_append level (front ++ [line]) rest h
  rw [List.append_assoc, List.singleton_append] at hpart
  rw [hpart, List.length_append, List.length_append, List.length_singleton]

/-- The less deep a section is, the further it reaches. -/
theorem length_sectionPart_antitone {outer inner : Nat} (h : outer ≤ inner) (lines : Buffer) :
    (sectionPart inner lines).length ≤ (sectionPart outer lines).length := by
  induction lines with
  | nil => exact Nat.le_refl _
  | cons line lines ih =>
    cases hinner : endsSection inner line with
    | true =>
      rw [sectionPart_cons_of_ends hinner]
      exact Nat.zero_le _
    | false =>
      have houter : endsSection outer line = false := by
        cases hline : headingOfLine? line with
        | none => exact endsSection_eq_false (isHeadingLine_eq_false_iff.mpr hline)
        | some pair =>
          rw [endsSection_of_headingOfLine? hline, decide_eq_false_iff_not] at hinner ⊢
          omega
      rw [sectionPart_cons_of_stays hinner, sectionPart_cons_of_stays houter]
      exact Nat.succ_le_succ ih

theorem sectionEndsAround_eq_nil {count : Nat} {heads : List Heading}
    (h : ∀ head ∈ heads, index ≤ head.line) : sectionEndsAround levels count index heads = [] := by
  induction heads with
  | nil => rfl
  | cons head heads ih =>
    have hhead := h head List.mem_cons_self
    have hlt : decide (head.line < index) = false := by
      rw [decide_eq_false_iff_not]
      omega
    rw [sectionEndsAround, hlt, Bool.and_false, Bool.false_and,
      ih fun other hother => h other (List.mem_cons_of_mem _ hother)]
    rfl

/-- Of the sections that a heading and the lines below it leave open, the one of the heading counts
if no line ends it, the line at the end included. -/
theorem filter_pendingLevels_cons {text : List Char} {first : Line}
    (hfirst : headingOfLine? first = some (level, text)) (levels : List Nat) (front : Buffer)
    (line : Line) :
    (pendingLevels levels (first :: front)).filter (!endsSection · line) =
      if levels.contains level && !(front ++ [line]).any (endsSection level) then
        level :: (pendingLevels levels front).filter (!endsSection · line)
      else (pendingLevels levels front).filter (!endsSection · line) := by
  have hopen : (levels.contains level && !(front ++ [line]).any (endsSection level)) =
      ((levels.contains level && !front.any (endsSection level)) && !endsSection level line) := by
    rw [List.any_append, List.any_cons, List.any_nil, Bool.or_false, Bool.not_or, Bool.and_assoc]
  rw [pendingLevels, hfirst, hopen]
  dsimp only
  cases levels.contains level && !front.any (endsSection level) with
  | false => rfl
  | true => rw [if_pos rfl, Bool.true_and, List.filter_cons]

/-- The sections around a line are those that the lines above it open, and that neither they nor
the line end. -/
theorem sectionEndsAround_append (levels : List Nat) (start : Nat) (front : Buffer) (line : Line)
    (rest : Buffer) :
    sectionEndsAround levels (start + (front ++ line :: rest).length) (start + front.length)
        (headingsFrom start (front ++ line :: rest)) =
      ((pendingLevels levels front).filter (!endsSection · line)).map fun level =>
        start + front.length + (sectionPart level rest).length := by
  induction front generalizing start with
  | nil =>
    rw [List.nil_append, List.length_nil, Nat.add_zero,
      sectionEndsAround_eq_nil fun head hhead => le_line_of_mem_headingsFrom hhead]
    rfl
  | cons first front ih =>
    rw [List.cons_append, add_length_cons, add_length_cons]
    cases hfirst : headingOfLine? first with
    | none => rw [headingsFrom_cons_of_not_heading hfirst, ih, pendingLevels, hfirst]
    | some pair =>
      obtain ⟨level, text⟩ := pair
      have hend : sectionEnd level (headingsFrom (start + 1) (front ++ line :: rest))
          (start + 1 + (front ++ line :: rest).length) =
            start + (sectionPart level (front ++ line :: rest)).length :=
        sectionEnd_headingsFrom level start (front ++ line :: rest)
      rw [headingsFrom_cons_of_heading hfirst, sectionEndsAround, ih,
        filter_pendingLevels_cons hfirst]
      dsimp only
      rw [hend]
      -- The section goes on below the line unless the line, or one above it, ends it.
      cases hany : (front ++ [line]).any (endsSection level) with
      | true =>
        have hle := length_sectionPart_le_of_ends hany rest
        have hout : decide (start + 1 + front.length ≤
            start + (sectionPart level (front ++ line :: rest)).length) = false := by
          rw [decide_eq_false_iff_not]
          omega
        rw [hout, Bool.and_false, Bool.not_true, Bool.and_false]
        rfl
      | false =>
        have hlast : start + (sectionPart level (front ++ line :: rest)).length =
            start + 1 + front.length + (sectionPart level rest).length := by
          rw [length_sectionPart_of_stays hany]
          omega
        have habove : decide (start < start + 1 + front.length) = true :=
          decide_eq_true (by omega)
        have hbelow : decide (start + 1 + front.length ≤
            start + 1 + front.length + (sectionPart level rest).length) = true :=
          decide_eq_true (Nat.le_add_right _ _)
        rw [hlast, habove, hbelow, Bool.and_true, Bool.and_true, Bool.not_false, Bool.and_true]
        cases levels.contains level <;> rfl

theorem max?_map_of_pairwise {values : List Nat} {f : Nat → Nat} (h : values.Pairwise (· < ·))
    (hf : ∀ a b, a ≤ b → f b ≤ f a) : (values.map f).max? = values.head?.map f := by
  cases values with
  | nil => rfl
  | cons first values =>
    obtain ⟨hfirst, -⟩ := List.pairwise_cons.mp h
    rw [List.map_cons, List.head?_cons, Option.map_some, List.max?_eq_some_iff]
    refine ⟨List.mem_cons_self, fun value hvalue => ?_⟩
    rcases List.mem_cons.mp hvalue with rfl | hvalue
    · exact Nat.le_refl _
    · obtain ⟨other, hother, rfl⟩ := List.mem_map.mp hvalue
      exact hf _ _ (Nat.le_of_lt (hfirst other hother))

/-- The bound around a line is the end of the outermost open section. -/
theorem sectionBound?_append (hline : isHeadingLine line = false) (levels : List Nat)
    (front rest : Buffer) :
    sectionBound? levels (headings (front ++ line :: rest)) (front ++ line :: rest).length
        front.length =
      (coverAfter levels none front).map fun level =>
        front.length + (sectionPart level rest).length := by
  have hends := sectionEndsAround_append levels 0 front line rest
  have hall :
      (pendingLevels levels front).filter (!endsSection · line) = pendingLevels levels front :=
    List.filter_eq_self.mpr fun level _ => by simp [endsSection_eq_false hline]
  rw [Nat.zero_add, Nat.zero_add, hall] at hends
  have hopen := openAfter_eq levels [] front
  rw [List.filter_nil, List.nil_append] at hopen
  rw [sectionBound?, headings, hends, ← hopen, max?_map_of_pairwise
    (pairwise_openAfter List.Pairwise.nil front), head?_openAfter List.Pairwise.nil]
  · rfl
  · intro a b hab
    exact Nat.add_le_add_left (length_sectionPart_antitone hab rest) _

/-! ### The lines that stay -/

theorem kept_or_footer (cover : Option Nat) (line : Line) :
    (cover = none ∨ isFooterLine line = false) ∨
      ∃ level, cover = some level ∧ isFooterLine line = true := by
  cases cover <;> cases isFooterLine line <;> simp

theorem keptLines_cons_of_kept (h : cover = none ∨ isFooterLine line = false) :
    keptLines levels rule cover 0 (line :: rest) =
      line :: keptLines levels rule (nextCover levels cover line) 0 rest := by
  rw [keptLines]
  intro level hcover hfooter
  rcases h with rfl | h
  · cases hcover
  · rw [h] at hfooter
    cases hfooter

theorem keptLines_cons_of_footer (h : isFooterLine line = true) :
    keptLines levels rule (some level) 0 (line :: rest) =
      keptLines levels rule (some level) (unitReach rule false (sectionPart level rest)) rest := by
  rw [keptLines]
  exact h

/-- How many lines after a line go with it as a footer. -/
def footerReach? (bound? : Nat → Option Nat) (rule : Line) (index : Nat) (line : Line)
    (rest : List Line) : Option Nat :=
  match bound? index, isFooterLine line with
  | some bound, true => some (unitReach rule false (rest.take (bound - index)))
  | _, _ => none

theorem footerSpansFrom_eq_scanSpans (bound? : Nat → Option Nat) (rule : Line)
    (inside index : Nat) (lines : Buffer) : footerSpansFrom bound? rule inside index lines =
      scanSpans (footerReach? bound? rule) inside index lines := by
  induction lines generalizing inside index with
  | nil => rfl
  | cons line lines ih =>
    cases inside with
    | succ inside => exact ih _ _
    | zero =>
      rw [footerSpansFrom, scanSpans, footerReach?]
      cases bound? index with
      | none => exact ih _ _
      | some bound =>
        cases isFooterLine line with
        | true => exact congrArg (_ :: ·) (ih _ _)
        | false => exact ih _ _

theorem footerReach?_eq_some_iff {bound? : Nat → Option Nat} {reach : Nat} :
    footerReach? bound? rule index line rest = some reach ↔ ∃ bound, bound? index = some bound ∧
      isFooterLine line = true ∧ unitReach rule false (rest.take (bound - index)) = reach := by
  rw [footerReach?]
  cases bound? index <;> cases isFooterLine line <;> simp

/-- Read off the indices of the headings, a footer reaches over lines of the outermost open
section. -/
theorem footerReach?_sectionBound? (levels : List Nat) (rule : Line) (front : Buffer) (line : Line)
    (rest : Buffer) :
    footerReach? (sectionBound? levels (headings (front ++ line :: rest))
        (front ++ line :: rest).length) rule front.length line rest =
      if isFooterLine line then
        (coverAfter levels none front).map fun level =>
          unitReach rule false (sectionPart level rest)
      else none := by
  cases hfooter : isFooterLine line with
  | false =>
    rw [footerReach?, hfooter]
    cases sectionBound? levels (headings (front ++ line :: rest)) (front ++ line :: rest).length
      front.length <;> rfl
  | true =>
    rw [footerReach?, sectionBound?_append (isHeadingLine_eq_false_of_isFooterLine hfooter),
      hfooter]
    cases coverAfter levels none front with
    | none => rfl
    | some level =>
      have hpart : rest.take (sectionPart level rest).length = sectionPart level rest :=
        (List.prefix_iff_eq_take.mp (List.takeWhile_prefix _)).symm
      simp only [Option.map_some, Nat.add_sub_cancel_left, hpart, if_true]

theorem scanKept_footerReach? {whole : Buffer} (hwhole : whole = front ++ lines)
    (levels : List Nat) (rule : Line) (inside : Nat) :
    scanKept (footerReach? (sectionBound? levels (headings whole) whole.length) rule) inside
        front.length lines =
      keptLines levels rule (coverAfter levels none front) inside lines := by
  induction lines generalizing inside front with
  | nil => rfl
  | cons line lines ih =>
    have hrest := @ih (front ++ [line]) (by rw [hwhole, List.append_assoc, List.singleton_append])
    rw [coverAfter_append, List.length_append, List.length_singleton] at hrest
    cases inside with
    | succ inside => exact hrest inside
    | zero =>
      have hreach := footerReach?_sectionBound? levels rule front line lines
      rw [← hwhole] at hreach
      rcases kept_or_footer (coverAfter levels none front) line with
        hkept | ⟨level, hcover, hfooter⟩
      · have hnone : footerReach? (sectionBound? levels (headings whole) whole.length) rule
            front.length line lines = none := by
          rw [hreach]
          rcases hkept with hcover | hfooter
          · simp [hcover]
          · simp [hfooter]
        rw [scanKept, hnone, keptLines_cons_of_kept hkept, ← hrest 0]
      · have hplain := isHeadingLine_eq_false_of_isFooterLine hfooter
        rw [hfooter, hcover, if_pos rfl, Option.map_some] at hreach
        rw [nextCover_of_not_heading hplain, hcover] at hrest
        rw [scanKept, hreach, hcover, keptLines_cons_of_footer hfooter]
        exact hrest _

/-- The lines that the program leaves. -/
theorem without_footerSpans (lines : Buffer) (levels : List Nat) (rule : Line) :
    lines.without (footerSpans lines levels rule) = keptLines levels rule none 0 lines := by
  rw [footerSpans, footerSpansFrom_eq_scanSpans, without_scanSpans]
  exact scanKept_footerReach? (List.nil_append lines).symm levels rule 0

end Waymark
