import Waymark.Proofs.Outline
import Waymark.Proofs.Spans

/-!
# Where footers are put

New footers are put in from the last heading to the first, and every insertion moves the
headings below it. The same buffer comes out of one pass from the first line to the last
that remembers which sections of a configured level are open, the outermost one first. A
heading closes the open sections that are not less deep than itself, and the last line
closes all of them; each section that is closed leaves a footer.

## Main definitions

* `endsSection` — the line is a heading that ends a section of a given level
* `nextOpened`, `closingCount` — how a line changes which sections are open
* `placeFooters` — the pass from the first line to the last
* `closeSection` — a footer at the end of the section that a buffer opens with

## Main results

* `placeFooters_cons_opened` — an open section around a buffer adds one footer to it
* `insertFooters_eq_placeFooters` — the pass puts in the same footers
* `outline_placeFooters` — footers are no headings
-/

namespace Waymark

/-- The line is a heading that ends a section of the given level. -/
def endsSection (level : Nat) (line : Line) : Bool :=
  (headingOfLine? line).any fun pair => pair.1 ≤ level

/-- The open sections of a configured level behind a line, the outermost one first. -/
def nextOpened (levels : List Nat) (opened : List Nat) (line : Line) : List Nat :=
  match headingOfLine? line with
  | some (level, _) =>
    opened.filter (· < level) ++ if levels.contains level then [level] else []
  | none => opened

/-- How many open sections end above a line. -/
def closingCount (opened : List Nat) (line : Line) : Nat :=
  opened.countP (endsSection · line)

/-- The footers of `count` sections that end on one line. -/
def footerStack (rule : Line) : Nat → Bool → List Line
  | 0, _ => []
  | count + 1, endsBlank => footerLines rule endsBlank ++ footerStack rule count (isBlank rule)

/-- The lines with a footer at the end of each section of a configured level, those that are
open around the lines included. -/
def placeFooters (levels : List Nat) (rule : Line) (opened : List Nat) (endsBlank : Bool) :
    List Line → List Line
  | [] => footerStack rule opened.length endsBlank
  | line :: rest =>
    footerStack rule (closingCount opened line) endsBlank ++
      line :: placeFooters levels rule (nextOpened levels opened line) (isBlank line) rest

/-- The lines with a footer before the first one that ends a section of the given level. -/
def closeSection (rule : Line) (level : Nat) (endsBlank : Bool) : List Line → List Line
  | [] => footerLines rule endsBlank
  | line :: rest =>
    if endsSection level line then footerLines rule endsBlank ++ line :: rest
    else line :: closeSection rule level (isBlank line) rest

/-- How many lines stand before the first one that ends a section of the given level. -/
def sectionLength (level : Nat) (lines : Buffer) : Nat :=
  (lines.takeWhile (!endsSection level ·)).length

variable {levels opened : List Nat} {rule line : Line} {level : Nat} {endsBlank : Bool}
variable {lines front back : Buffer}

/-! ### Open sections -/

theorem endsSection_eq_false (h : isHeadingLine line = false) : endsSection level line = false := by
  rw [endsSection, isHeadingLine_eq_false_iff.mp h]
  rfl

theorem isHeadingLine_of_endsSection (h : endsSection level line = true) :
    isHeadingLine line = true := by
  by_contra hplain
  rw [endsSection_eq_false (by simpa using hplain)] at h
  cases h

theorem endsSection_of_headingOfLine? {text : List Char} {found : Nat}
    (h : headingOfLine? line = some (found, text)) :
    endsSection level line = decide (found ≤ level) := by
  rw [endsSection, h]
  rfl

theorem nextOpened_of_not_heading (h : isHeadingLine line = false) :
    nextOpened levels opened line = opened := by
  rw [nextOpened, isHeadingLine_eq_false_iff.mp h]

theorem closingCount_of_not_heading (h : isHeadingLine line = false) :
    closingCount opened line = 0 :=
  List.countP_eq_zero.mpr fun _ _ => by simp [endsSection_eq_false h]

/-- Only a heading ends sections. -/
theorem isHeadingLine_of_closingCount (h : closingCount opened line ≠ 0) :
    isHeadingLine line = true := by
  by_contra hplain
  exact h (closingCount_of_not_heading (by simpa using hplain))

theorem nextOpened_of_heading {text : List Char} (h : headingOfLine? line = some (level, text)) :
    nextOpened levels opened line =
      opened.filter (· < level) ++ if levels.contains level then [level] else [] := by
  rw [nextOpened, h]

/-- Behind a line those sections are open that it does not end, and the one that it opens. -/
theorem mem_nextOpened_iff {inner : Nat} : inner ∈ nextOpened levels opened line ↔
    (inner ∈ opened ∧ endsSection inner line = false) ∨
      (inner ∈ levels ∧ ∃ text, headingOfLine? line = some (inner, text)) := by
  cases hline : headingOfLine? line with
  | none =>
    have hplain := isHeadingLine_eq_false_iff.mpr hline
    simp [nextOpened_of_not_heading hplain, endsSection_eq_false hplain]
  | some pair =>
    obtain ⟨found, text⟩ := pair
    rw [nextOpened_of_heading hline, List.mem_append, List.mem_filter,
      endsSection_of_headingOfLine? hline]
    refine or_congr (by simp) ?_
    by_cases hlevel : found ∈ levels
    · simp only [List.contains_iff_mem.mpr hlevel, if_true, List.mem_singleton]
      constructor
      · rintro rfl
        exact ⟨hlevel, text, rfl⟩
      · rintro ⟨-, text', hpair⟩
        exact (congrArg Prod.fst (Option.some.inj hpair)).symm
    · have hnot : levels.contains found = false := by simpa using hlevel
      rw [hnot, if_neg Bool.false_ne_true]
      refine iff_of_false List.not_mem_nil ?_
      rintro ⟨hinner, text', hpair⟩
      obtain ⟨rfl, -⟩ := Prod.mk.inj (Option.some.inj hpair)
      exact hlevel hinner

/-- The open sections get deeper from the outermost one inwards, and stay so. -/
theorem pairwise_nextOpened (h : opened.Pairwise (· < ·)) (line : Line) :
    (nextOpened levels opened line).Pairwise (· < ·) := by
  cases hline : headingOfLine? line with
  | none => rwa [nextOpened_of_not_heading (isHeadingLine_eq_false_iff.mpr hline)]
  | some pair =>
    rw [nextOpened_of_heading hline]
    split
    · refine List.pairwise_append.mpr ⟨h.filter _, List.pairwise_singleton _ _, ?_⟩
      intro outer houter inner hinner
      obtain rfl := List.mem_singleton.mp hinner
      simpa using (List.mem_filter.mp houter).2
    · rw [List.append_nil]
      exact h.filter _

theorem placeFooters_cons_of_not_heading (h : isHeadingLine line = false) :
    placeFooters levels rule opened endsBlank (line :: lines) =
      line :: placeFooters levels rule opened (isBlank line) lines := by
  rw [placeFooters, nextOpened_of_not_heading h, closingCount_of_not_heading h]
  rfl

theorem placeFooters_append_of_plain (h : ∀ line ∈ front, isHeadingLine line = false) :
    placeFooters levels rule opened endsBlank (front ++ back) =
      front ++
        placeFooters levels rule opened ((front.getLast?.map isBlank).getD endsBlank) back := by
  induction front generalizing endsBlank with
  | nil => rfl
  | cons line front ih =>
    rw [List.cons_append, placeFooters_cons_of_not_heading (h line List.mem_cons_self),
      ih fun l hl => h l (List.mem_cons_of_mem _ hl), List.getLast?_cons]
    cases front.getLast? <;> rfl

/-! ### Footers -/

theorem mem_footerLines (h : line ∈ footerLines rule endsBlank) :
    line = [] ∨ line = backToTop ∨ line = rule := by
  rw [footerLines] at h
  cases endsBlank <;> simp at h <;> tauto

theorem mem_footerStack {count : Nat} (h : line ∈ footerStack rule count endsBlank) :
    line = [] ∨ line = backToTop ∨ line = rule := by
  induction count generalizing endsBlank with
  | zero => cases h
  | succ count ih =>
    rcases List.mem_append.mp h with h | h
    · exact mem_footerLines h
    · exact ih h

theorem isHeadingLine_backToTop : isHeadingLine backToTop = false := by
  decide

theorem isHeadingLine_eq_false_of_mem_footerStack {count : Nat} (hrule : isHeadingLine rule = false)
    (h : line ∈ footerStack rule count endsBlank) : isHeadingLine line = false := by
  rcases mem_footerStack h with rfl | rfl | rfl
  · rfl
  · exact isHeadingLine_backToTop
  · exact hrule

theorem isHeadingLine_eq_false_of_mem_footerLines (hrule : isHeadingLine rule = false)
    (h : line ∈ footerLines rule endsBlank) : isHeadingLine line = false := by
  rcases mem_footerLines h with rfl | rfl | rfl
  · rfl
  · exact isHeadingLine_backToTop
  · exact hrule

/-- The line behind a footer is the rule line. -/
theorem footerStack_succ (rule : Line) (count : Nat) (endsBlank : Bool) :
    footerStack rule (count + 1) endsBlank = footerStack rule count endsBlank ++
      footerLines rule (if count = 0 then endsBlank else isBlank rule) := by
  induction count generalizing endsBlank with
  | zero => simp [footerStack]
  | succ count ih =>
    rw [footerStack, ih, ← List.append_assoc, ← footerStack]
    simp

/-- Putting in footers keeps the outline. -/
theorem outline_placeFooters (hrule : isHeadingLine rule = false) :
    outline (placeFooters levels rule opened endsBlank lines) = outline lines := by
  induction lines generalizing opened endsBlank with
  | nil => exact outline_eq_nil fun _ => isHeadingLine_eq_false_of_mem_footerStack hrule
  | cons line lines ih =>
    rw [placeFooters, outline_append,
      outline_eq_nil fun _ => isHeadingLine_eq_false_of_mem_footerStack hrule, outline_cons, ih,
      ← outline_cons]
    rfl

/-! ### One more open section -/

theorem closeSection_append (hfront : ∀ line ∈ front, isHeadingLine line = false) (rule : Line)
    (level : Nat) (endsBlank : Bool) (back : Buffer) :
    closeSection rule level endsBlank (front ++ back) =
      front ++ closeSection rule level ((front.getLast?.map isBlank).getD endsBlank) back := by
  induction front generalizing endsBlank with
  | nil => rfl
  | cons line front ih =>
    have hline := hfront line List.mem_cons_self
    rw [List.cons_append, closeSection, endsSection_eq_false hline,
      ih fun l hl => hfront l (List.mem_cons_of_mem _ hl), List.getLast?_cons]
    cases front.getLast? <;> rfl

theorem getLast?_footerStack (rule : Line) (count : Nat) (endsBlank : Bool) :
    ((footerStack rule count endsBlank).getLast?.map isBlank).getD endsBlank =
      if count = 0 then endsBlank else isBlank rule := by
  cases count with
  | zero => rfl
  | succ count =>
    have hlast : ∀ ends, (footerLines rule ends).getLast? = some rule := by
      intro ends
      cases ends <;> rfl
    rw [footerStack_succ, List.getLast?_append, hlast]
    rfl

theorem closingCount_cons (level : Nat) (opened : List Nat) (line : Line) :
    closingCount (level :: opened) line =
      closingCount opened line + if endsSection level line then 1 else 0 :=
  List.countP_cons

theorem nextOpened_cons_of_ends (hends : endsSection level line = true) :
    nextOpened levels (level :: opened) line = nextOpened levels opened line := by
  obtain ⟨found, text, hline⟩ := isHeadingLine_iff.mp (isHeadingLine_of_endsSection hends)
  rw [endsSection_of_headingOfLine? hline, decide_eq_true_eq] at hends
  rw [nextOpened_of_heading hline, nextOpened_of_heading hline,
    List.filter_cons_of_neg (by simpa using hends)]

theorem nextOpened_cons_of_stays (hends : endsSection level line = false) :
    nextOpened levels (level :: opened) line = level :: nextOpened levels opened line := by
  cases hline : headingOfLine? line with
  | none =>
    have hplain := isHeadingLine_eq_false_iff.mpr hline
    rw [nextOpened_of_not_heading hplain, nextOpened_of_not_heading hplain]
  | some pair =>
    rw [endsSection_of_headingOfLine? hline, decide_eq_false_iff_not] at hends
    rw [nextOpened_of_heading hline, nextOpened_of_heading hline,
      List.filter_cons_of_pos (by simpa using hends), List.cons_append]

/-- What is open behind a line that does not end a section is deeper than that section. -/
theorem lt_of_mem_nextOpened {inner : Nat} (hends : endsSection level line = false)
    (hdeeper : ∀ inner ∈ opened, level < inner) (h : inner ∈ nextOpened levels opened line) :
    level < inner := by
  rcases mem_nextOpened_iff.mp h with ⟨hinner, -⟩ | ⟨-, text, hline⟩
  · exact hdeeper inner hinner
  · rwa [endsSection_of_headingOfLine? hline, decide_eq_false_iff_not, Nat.not_le] at hends

/-- An open section around a buffer, less deep than all others, adds one footer to it. -/
theorem placeFooters_cons_opened (hrule : isHeadingLine rule = false)
    (hdeeper : ∀ inner ∈ opened, level < inner) :
    placeFooters levels rule (level :: opened) endsBlank lines =
      closeSection rule level endsBlank (placeFooters levels rule opened endsBlank lines) := by
  have hstack : ∀ count ends, ∀ line ∈ footerStack rule count ends, isHeadingLine line = false :=
    fun _ _ _ => isHeadingLine_eq_false_of_mem_footerStack hrule
  induction lines generalizing opened endsBlank with
  | nil =>
    have hclose := closeSection_append (hstack opened.length endsBlank) rule level endsBlank []
    rw [List.append_nil, getLast?_footerStack] at hclose
    rw [placeFooters, placeFooters, hclose, List.length_cons, footerStack_succ, closeSection]
  | cons line lines ih =>
    rw [placeFooters, placeFooters, closeSection_append (hstack _ _), getLast?_footerStack,
      closeSection, closingCount_cons]
    cases hends : endsSection level line with
    | true =>
      rw [nextOpened_cons_of_ends hends, if_pos rfl, if_pos rfl, footerStack_succ,
        List.append_assoc]
    | false =>
      rw [nextOpened_cons_of_stays hends, ih fun _ => lt_of_mem_nextOpened hends hdeeper]
      rfl

/-! ### One insertion -/

theorem sectionLength_le (level : Nat) (lines : Buffer) :
    sectionLength level lines ≤ lines.length :=
  (List.takeWhile_sublist _).length_le

/-- The end of a section is known by the lines of the section and the first line behind them. -/
theorem sectionEnd_headingsFrom_append {start count : Nat} {part : Buffer}
    (hpart : ∀ line ∈ part, endsSection level line = false)
    (hback : ∀ line ∈ back.head?, endsSection level line = true)
    (hcount : back = [] → count = start + 1 + part.length) :
    sectionEnd level (headingsFrom (start + 1) (part ++ back)) count = start + part.length := by
  induction part generalizing start with
  | nil =>
    cases back with
    | nil =>
      have hend : count = start + 1 := hcount rfl
      rw [hend]
      rfl
    | cons line back =>
      have hends : endsSection level line = true := hback line rfl
      obtain ⟨found, text, hline⟩ := isHeadingLine_iff.mp (isHeadingLine_of_endsSection hends)
      rw [endsSection_of_headingOfLine? hline, decide_eq_true_eq] at hends
      rw [List.nil_append, headingsFrom_cons_of_heading hline, sectionEnd,
        List.find?_cons_of_pos (by simpa using hends)]
      rfl
  | cons line part ih =>
    obtain ⟨hends, hrest⟩ := List.forall_mem_cons.mp hpart
    -- The line belongs to the section, so the section ends where it ends for the lines below.
    have hlater : sectionEnd level (headingsFrom (start + 1 + 1) (part ++ back)) count =
        start + 1 + part.length :=
      ih hrest fun hnil => by rw [hcount hnil, add_length_cons]
    rw [List.cons_append, add_length_cons]
    cases hline : headingOfLine? line with
    | none => rw [headingsFrom_cons_of_not_heading hline, hlater]
    | some pair =>
      rw [endsSection_of_headingOfLine? hline, decide_eq_false_iff_not] at hends
      rw [headingsFrom_cons_of_heading hline, sectionEnd,
        List.find?_cons_of_neg (by simpa using hends), ← sectionEnd, hlater]

/-- A section ends before the first heading that ends it. -/
theorem sectionEnd_headingsFrom (level start : Nat) (lines : Buffer) :
    sectionEnd level (headingsFrom (start + 1) lines) (start + 1 + lines.length) =
      start + sectionLength level lines := by
  have hparts : lines.takeWhile (!endsSection level ·) ++ lines.dropWhile (!endsSection level ·) =
      lines := List.takeWhile_append_dropWhile
  have hpart : ∀ line ∈ lines.takeWhile (!endsSection level ·), endsSection level line = false :=
    fun line hline => by simpa using List.mem_takeWhile_imp hline
  have hback : ∀ line ∈ (lines.dropWhile (!endsSection level ·)).head?,
      endsSection level line = true :=
    fun line hline => by simpa using eq_false_of_mem_head?_dropWhile hline
  have hcount : lines.dropWhile (!endsSection level ·) = [] →
      start + 1 + lines.length =
        start + 1 + (lines.takeWhile (!endsSection level ·)).length := by
    intro hnil
    conv_lhs => rw [← hparts, hnil, List.append_nil]
  have hend := sectionEnd_headingsFrom_append hpart hback hcount
  rwa [hparts] at hend

theorem closeSection_eq (rule : Line) (level : Nat) (endsBlank : Bool) (lines : Buffer) :
    closeSection rule level endsBlank lines =
      lines.take (sectionLength level lines) ++ footerLines rule
        (((lines.take (sectionLength level lines)).getLast?.map isBlank).getD endsBlank) ++
          lines.drop (sectionLength level lines) := by
  induction lines generalizing endsBlank with
  | nil => simp [closeSection]
  | cons line lines ih =>
    rw [closeSection, sectionLength]
    cases hends : endsSection level line with
    | true =>
      rw [List.takeWhile_cons_of_neg (by simp [hends])]
      simp
    | false =>
      rw [List.takeWhile_cons_of_pos (by simp [hends]), List.length_cons, ← sectionLength,
        List.take_succ_cons, List.drop_succ_cons, List.getLast?_cons, ih]
      cases (lines.take (sectionLength level lines)).getLast? <;> rfl

theorem headingsFrom_insert {inserted : List Line}
    (hplain : ∀ line ∈ inserted, isHeadingLine line = false) (index : Nat) (front back : Buffer) :
    headingsFrom index (front ++ inserted ++ back) =
      (headingsFrom index (front ++ back)).map
        (·.shift (index + front.length) inserted.length) := by
  have habove : (headingsFrom index front).map (·.shift (index + front.length) inserted.length) =
      headingsFrom index front := by
    refine (List.map_congr_left fun head hhead => ?_).trans (List.map_id _)
    have := line_lt_of_mem_headingsFrom hhead
    rw [Heading.shift, if_neg (by omega)]
    rfl
  have hbelow : (headingsFrom (index + front.length) back).map
      (·.shift (index + front.length) inserted.length) =
        headingsFrom (index + front.length + inserted.length) back := by
    rw [headingsFrom_add (index + front.length)]
    refine List.map_congr_left fun head hhead => ?_
    rw [Heading.shift, if_pos (le_line_of_mem_headingsFrom hhead)]
  rw [List.append_assoc, headingsFrom_append, headingsFrom_append, headingsFrom_append,
    headingsFrom_eq_nil hplain, List.map_append, habove, hbelow]
  rfl

/-- Whether the section that a heading opens ends blank, read off its last line. -/
theorem isBlank_sectionEnd (front : Buffer) (line : Line) (lines : Buffer) {count : Nat}
    (hle : count ≤ lines.length) :
    isBlank ((front ++ line :: lines)[front.length + count]?.getD []) =
      ((lines.take count).getLast?.map isBlank).getD (isBlank line) := by
  have htake : (lines.take count).length = count := List.length_take_of_le hle
  have hlast : (front ++ line :: lines)[front.length + count]? =
      some ((lines.take count).getLast?.getD line) := by
    have hparts : line :: lines = (line :: lines.take count) ++ lines.drop count := by
      rw [List.cons_append, List.take_append_drop]
    rw [List.getElem?_append_right (by omega), Nat.add_sub_cancel_left, hparts,
      List.getElem?_append_left (by rw [List.length_cons]; omega), ← List.getLast?_cons,
      List.getLast?_eq_getElem?, List.length_cons, htake]
    rfl
  rw [hlast]
  cases (lines.take count).getLast? <;> rfl

/-- The footer of the section that a heading opens, put in by index. -/
theorem insertAt_sectionEnd (rule : Line) (level : Nat) (front : Buffer) (line : Line)
    (lines : Buffer) :
    (front ++ line :: lines).insertAt (front.length + sectionLength level lines + 1)
        (footerLines rule (isBlank
          ((front ++ line :: lines)[front.length + sectionLength level lines]?.getD []))) =
      front ++ line :: closeSection rule level (isBlank line) lines := by
  have hle := sectionLength_le level lines
  rw [closeSection_eq, isBlank_sectionEnd front line lines hle]
  have hparts : front ++ line :: lines =
      (front ++ line :: lines.take (sectionLength level lines)) ++
        lines.drop (sectionLength level lines) := by
    rw [List.append_assoc, List.cons_append, List.take_append_drop]
  have hlength : (front ++ line :: lines.take (sectionLength level lines)).length =
      front.length + sectionLength level lines + 1 := by
    rw [length_append_cons, List.length_take_of_le hle, Nat.add_right_comm]
  rw [hparts, ← hlength, insertAt_length]
  simp

/-- The headings below a footer stand further down by its lines. -/
theorem headingsFrom_closeSection (hrule : isHeadingLine rule = false) (level : Nat)
    (front : Buffer) (line : Line) (lines : Buffer) :
    headingsFrom (front.length + 1) (closeSection rule level (isBlank line) lines) =
      (headingsFrom (front.length + 1) lines).map
        (·.shift (front.length + sectionLength level lines + 1)
          (footerLines rule (isBlank ((front ++ line :: lines)[front.length +
            sectionLength level lines]?.getD []))).length) := by
  have hle := sectionLength_le level lines
  have hplace : front.length + 1 + (lines.take (sectionLength level lines)).length =
      front.length + sectionLength level lines + 1 := by
    rw [List.length_take_of_le hle, Nat.add_right_comm]
  rw [isBlank_sectionEnd front line lines hle, closeSection_eq, headingsFrom_insert
    (fun _ => isHeadingLine_eq_false_of_mem_footerLines hrule), List.take_append_drop, hplace]

/-- The pass from the first line to the last puts in the same footers. -/
theorem insertFooters_append (hrule : isHeadingLine rule = false) (endsBlank : Bool)
    (front lines : Buffer) :
    insertFooters levels rule (headingsFrom front.length lines) (front ++ lines) =
      (front ++ placeFooters levels rule [] endsBlank lines,
        headingsFrom front.length (placeFooters levels rule [] endsBlank lines)) := by
  induction lines generalizing endsBlank front with
  | nil => rfl
  | cons line lines ih =>
    -- The headings below go first, so their footers are in when this one looks for its end.
    have hrest := ih (isBlank line) (front ++ [line])
    rw [List.length_append, List.length_singleton, List.append_assoc, List.singleton_append,
      List.append_assoc, List.singleton_append] at hrest
    have hplace : placeFooters levels rule [] endsBlank (line :: lines) =
        line :: placeFooters levels rule (nextOpened levels [] line) (isBlank line) lines := rfl
    rw [hplace]
    cases hline : headingOfLine? line with
    | none =>
      have hplain := isHeadingLine_eq_false_iff.mpr hline
      rw [headingsFrom_cons_of_not_heading hline, nextOpened_of_not_heading hplain,
        headingsFrom_cons_of_not_heading hline, hrest]
    | some pair =>
      obtain ⟨level, text⟩ := pair
      rw [headingsFrom_cons_of_heading hline, headingsFrom_cons_of_heading hline, insertFooters,
        hrest, nextOpened_of_heading hline, List.filter_nil, List.nil_append]
      cases hlevel : levels.contains level with
      | false => simp only [Bool.false_eq_true, if_false]
      | true =>
        rw [if_pos rfl, placeFooters_cons_opened hrule (by simp)]
        generalize placeFooters levels rule [] (isBlank line) lines = placed
        have hlast : sectionEnd level (headingsFrom (front.length + 1) placed)
            (front ++ line :: placed).length = front.length + sectionLength level placed := by
          rw [length_append_cons, sectionEnd_headingsFrom]
        simp only [if_true, hlast, insertAt_sectionEnd, headingsFrom_closeSection hrule]

theorem insertFooters_eq_placeFooters (hrule : isHeadingLine rule = false) (endsBlank : Bool)
    (lines : Buffer) : (insertFooters levels rule (headings lines) lines).1 =
      placeFooters levels rule [] endsBlank lines := by
  have hpass : insertFooters levels rule (headingsFrom 0 lines) lines = _ :=
    insertFooters_append hrule endsBlank [] lines
  rw [headings, hpass]
  rfl

end Waymark
