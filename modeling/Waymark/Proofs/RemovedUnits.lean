import Waymark.Proofs.FooterEdits
import Waymark.Proofs.FooterPlacement
import Waymark.Proofs.Generated

/-!
# What goes with a footer

Before new footers are put in, the old ones in the sections are taken out. A unit is a footer line
with what goes with it: the rule line below it, the next footer below that, its rule line, and so
on. Blank lines between these go too, those behind the last one stay. The search for the next line
of a unit looks over blank lines as far as the furthest section reaches that the footer lies in, so
it may run into sections within that one and behind it, but no heading is ever taken for a part of
a unit.

The rule line must not be blank, or blank lines would pass for it, and it must not start with `#`,
or a heading might.

## Main definitions

* `IsUnit` — lines that go together
* `IsFurthest` — the section around a line that reaches furthest
* `TakesUnits` — what is asked of the spans that are taken out of a buffer

## Main results

* `isUnit_take_unitReach`, `stopsBefore_unitReach` — a unit is as long as it can be
* `exists_of_mem_footerSpans` — a span is the unit of a footer in a section
* `footerSpans_takeUnits` — the spans of the stage of the footers are the units in the sections
-/

namespace Waymark

/-- Of the lines that are not blank, the last one passes the test. -/
def EndsIn (test : Line → Bool) (lines : Buffer) : Prop :=
  ∃ front line gap, lines = front ++ line :: gap ∧ test line = true ∧
    ∀ line ∈ gap, isBlank line = true

/-- What may go with a footer, below a rule line if `ruled` holds: blank lines if more follows, one
rule line, a further footer. -/
inductive GoesWith (rule : Line) : Bool → Buffer → Prop
  | nil (ruled : Bool) : GoesWith rule ruled []
  | blank {ruled : Bool} {line : Line} {below : Buffer} : isBlank line = true →
      GoesWith rule ruled below → below ≠ [] → GoesWith rule ruled (line :: below)
  | mark {line : Line} {below : Buffer} : isMarkLine rule line = true →
      GoesWith rule true below → GoesWith rule false (line :: below)
  | link {ruled : Bool} {line : Line} {below : Buffer} : isFooterLine line = true →
      GoesWith rule false below → GoesWith rule ruled (line :: below)

/-- Lines that go together. -/
structure IsUnit (rule : Line) (unit : Buffer) : Prop where
  /-- The first line is a footer line. -/
  link : ∃ link below, unit = link :: below ∧ isFooterLine link = true
  /-- Every line is a footer line, a blank line, or the rule line of the footer above it. -/
  parts : ∀ above line below, unit = above ++ line :: below →
    isFooterLine line = true ∨ isBlank line = true ∨
      (isMarkLine rule line = true ∧ EndsIn isFooterLine above)
  /-- The last line is not blank. -/
  last : ∀ line ∈ unit.getLast?, isBlank line = false

/-- The first line below a unit that is not blank would not go with it: it is no footer line, and
it is a rule line only if the unit has its rule line already. -/
def StopsBefore (rule : Line) (unit below : Buffer) : Prop :=
  ∀ line ∈ (below.dropWhile isBlank).head?, isFooterLine line = false ∧
    (isMarkLine rule line = true → EndsIn (isMarkLine rule) unit)

/-- Of the sections around a line, `around` is one that reaches furthest. -/
structure IsFurthest (sections : List Span) (index : Nat) (around : Span) : Prop where
  /-- It is one of the sections. -/
  mem : around ∈ sections
  /-- The line lies in it. -/
  inside : around.contains index = true
  /-- No other section around the line ends behind it. -/
  le_last : ∀ other ∈ sections, other.contains index = true → other.last ≤ around.last

/-- What is asked of the spans that are taken out of a buffer whose sections at the given levels
get new footers. -/
structure TakesUnits (lines : Buffer) (levels : List Nat) (rule : Line) (spans : List Span) :
    Prop where
  /-- The spans lie apart, none is empty, and all lie in the buffer. -/
  tidy : TidySpans spans lines.length
  /-- No heading goes. -/
  plain : ∀ span ∈ spans, ∀ line ∈ lines.linesOf span, isHeadingLine line = false
  /-- The lines of a span are a unit. -/
  units : ∀ span ∈ spans, IsUnit rule (lines.linesOf span)
  /-- A span starts in a section, lies within the one that reaches furthest, and does not stop
  short in it. -/
  within : ∀ span ∈ spans, ∃ around, IsFurthest (sectionsOf levels lines) span.first around ∧
    span.last ≤ around.last ∧
      StopsBefore rule (lines.linesOf span) (lines.linesOf ⟨span.last + 1, around.last⟩)
  /-- Every footer line in a section goes. -/
  every : ∀ index line, lines[index]? = some line → isFooterLine line = true →
    coversLine (sectionsOf levels lines) index = true → coversLine spans index = true
  /-- Of the lines that are left, no footer line lies in a section. -/
  left : ∀ index line, (lines.without spans)[index]? = some line → isFooterLine line = true →
    coversLine (sectionsOf levels (lines.without spans)) index = false

variable {levels : List Nat} {rule line link : Line} {lines front part above below : Buffer}
variable {test : Line → Bool} {span : Span} {ruled : Bool} {index bound reach : Nat}

/-! ### Units -/

theorem EndsIn.concat_blank (h : EndsIn test above) (hblank : isBlank line = true) :
    EndsIn test (above ++ [line]) := by
  obtain ⟨front, last, gap, rfl, hlast, hgap⟩ := h
  refine ⟨front, last, gap ++ [line], by simp, hlast, ?_⟩
  exact List.forall_mem_append.mpr ⟨hgap, by simpa using hblank⟩

theorem endsIn_concat (above : Buffer) (h : test line = true) : EndsIn test (above ++ [line]) :=
  ⟨above, line, [], rfl, h, by simp⟩

/-- What is taken along is what may go with a footer. -/
theorem goesWith_take_unitReach (rule : Line) (ruled : Bool) (part : Buffer) :
    GoesWith rule ruled (part.take (unitReach rule ruled part)) := by
  induction part generalizing ruled with
  | nil => exact .nil ruled
  | cons line part ih =>
    rw [unitReach]
    split
    · next hblank =>
      split
      · exact .nil ruled
      · next reach hreach =>
        -- A blank line is taken along only if more follows, so what follows is not empty.
        have hbelow := ih ruled
        rw [hreach] at hbelow
        refine .blank hblank hbelow ?_
        rw [Ne, List.take_eq_nil_iff]
        rintro (hzero | rfl)
        · cases hzero
        · cases hreach
    · split
      · next hmark =>
        rw [Bool.and_eq_true, Bool.not_eq_true'] at hmark
        obtain ⟨rfl, hmark⟩ := hmark
        exact .mark hmark (ih true)
      · split
        · next hlink => exact .link hlink (ih false)
        · exact .nil ruled

/-- What goes with a footer that some lines end in, line by line. -/
theorem GoesWith.parts (h : GoesWith rule ruled part) (front : Buffer)
    (hfront : ruled = false → EndsIn isFooterLine front) (hcut : part = above ++ line :: below) :
    isFooterLine line = true ∨ isBlank line = true ∨
      (isMarkLine rule line = true ∧ EndsIn isFooterLine (front ++ above)) := by
  -- The lines above move into `front` one by one. Behind a rule line `front` ends in that line, but
  -- then no further rule line may follow before the next footer.
  induction h generalizing front above with
  | nil => simp at hcut
  | @blank _ first _ hblank _ _ ih =>
    cases above with
    | nil =>
      obtain ⟨rfl, -⟩ := List.cons.inj hcut
      exact Or.inr (Or.inl hblank)
    | cons _ above =>
      obtain ⟨rfl, hrest⟩ := List.cons.inj hcut
      rw [List.append_cons]
      exact ih _ (fun hruled => (hfront hruled).concat_blank hblank) hrest
  | @mark first _ hmark _ ih =>
    cases above with
    | nil =>
      obtain ⟨rfl, -⟩ := List.cons.inj hcut
      exact Or.inr (Or.inr ⟨hmark, by simpa using hfront rfl⟩)
    | cons _ above =>
      obtain ⟨rfl, hrest⟩ := List.cons.inj hcut
      rw [List.append_cons]
      exact ih _ (fun hruled => by cases hruled) hrest
  | @link _ first _ hlink _ ih =>
    cases above with
    | nil =>
      obtain ⟨rfl, -⟩ := List.cons.inj hcut
      exact Or.inl hlink
    | cons _ above =>
      obtain ⟨rfl, hrest⟩ := List.cons.inj hcut
      rw [List.append_cons]
      exact ih _ (fun _ => endsIn_concat front hlink) hrest

/-- What goes with a footer does not end blank. -/
theorem GoesWith.isBlank_getLast? (hrule : isBlank rule = false) (h : GoesWith rule ruled part) :
    ∀ line ∈ part.getLast?, isBlank line = false := by
  have hcons {first : Line} {below : Buffer} (hfirst : below = [] → isBlank first = false)
      (hbelow : ∀ line ∈ below.getLast?, isBlank line = false) :
      ∀ line ∈ (first :: below).getLast?, isBlank line = false := by
    rw [List.getLast?_cons]
    intro line hline
    obtain rfl := Option.some.inj hline
    cases hlast : below.getLast? with
    | none => exact hfirst (List.getLast?_eq_none_iff.mp hlast)
    | some last => exact hbelow last hlast
  induction h with
  | nil => simp
  | blank _ _ hne ih => exact hcons (fun hnil => absurd hnil hne) ih
  | mark hmark _ ih => exact hcons (fun _ => isBlank_eq_false_of_isMarkLine hrule hmark) ih
  | link hlink _ ih => exact hcons (fun _ => isBlank_eq_false_of_isFooterLine hlink) ih

/-- A footer with what goes with it is a unit. -/
theorem isUnit_cons (hrule : isBlank rule = false) (hlink : isFooterLine link = true)
    (h : GoesWith rule false part) : IsUnit rule (link :: part) := by
  -- Read as lines behind a rule line, the unit must begin with a footer of its own.
  have hunit : GoesWith rule true (link :: part) := .link hlink h
  refine ⟨⟨link, part, rfl, hlink⟩, fun above line below hcut => ?_, hunit.isBlank_getLast? hrule⟩
  exact hunit.parts [] (fun hruled => by cases hruled) hcut

/-- No heading is part of a unit. -/
theorem IsUnit.isHeadingLine_eq_false (hne : rule ≠ []) (hhash : rule.head? ≠ some '#')
    (h : IsUnit rule part) : ∀ line ∈ part, isHeadingLine line = false := by
  intro line hline
  obtain ⟨above, below, hcut⟩ := List.append_of_mem hline
  rcases h.parts above line below hcut with hlink | hblank | ⟨hmark, -⟩
  · exact isHeadingLine_eq_false_of_isFooterLine hlink
  · exact isHeadingLine_eq_false_of_isBlank hblank
  · by_contra hheading
    rw [isMarkLine_eq_false_of_isHeadingLine hhash hne (by simpa using hheading)] at hmark
    cases hmark

/-- Where the lines end that are taken along, nothing more would go with the footer. -/
theorem stopsBefore_drop_unitReach (front : Buffer)
    (hfront : ruled = true → EndsIn (isMarkLine rule) front) :
    StopsBefore rule (front ++ part.take (unitReach rule ruled part))
      (part.drop (unitReach rule ruled part)) := by
  induction part generalizing ruled front with
  | nil => simp [StopsBefore]
  | cons line part ih =>
    rw [unitReach]
    split
    · next hblank =>
      split
      · next hreach =>
        -- Nothing follows behind the blank lines, so they stay, and the search ends above them.
        have hbelow := ih front hfront
        rw [hreach, List.take_zero, List.append_nil, List.drop_zero] at hbelow
        rwa [List.take_zero, List.append_nil, List.drop_zero, StopsBefore,
          List.dropWhile_cons_of_pos hblank]
      · next reach hreach =>
        have hbelow := ih (front ++ [line]) fun hruled => (hfront hruled).concat_blank hblank
        rw [hreach] at hbelow
        rwa [List.take_succ_cons, List.drop_succ_cons, List.append_cons]
    · split
      · next hmark =>
        rw [Bool.and_eq_true] at hmark
        rw [List.take_succ_cons, List.drop_succ_cons, List.append_cons]
        exact ih (front ++ [line]) fun _ => endsIn_concat front hmark.2
      · split
        · next hlink =>
          rw [List.take_succ_cons, List.drop_succ_cons, List.append_cons]
          exact ih (front ++ [line]) fun hruled => by cases hruled
        · next hblank hmark hlink =>
          -- A rule line ends the unit only if there was one before.
          rw [List.take_zero, List.drop_zero, List.append_nil, StopsBefore,
            List.dropWhile_cons_of_neg hblank]
          rintro _ ⟨⟩
          refine ⟨by simpa using hlink, fun hline => hfront ?_⟩
          simpa [hline] using hmark

/-! ### Sections -/

/-- The bound around a line is the end of a section that reaches furthest. -/
theorem exists_isFurthest
    (h : sectionBound? levels (headings lines) lines.length index = some bound) :
    ∃ around, IsFurthest (sectionsOf levels lines) index around ∧ around.last = bound := by
  obtain ⟨hmem, hmax⟩ := List.max?_eq_some_iff.mp h
  obtain ⟨around, haround, hin, rfl⟩ := mem_sectionEndsAround_iff.mp hmem
  refine ⟨around, ⟨haround, hin, fun other hother hcontains => ?_⟩, rfl⟩
  exact hmax _ (mem_sectionEndsAround_iff.mpr ⟨other, hother, hcontains, rfl⟩)

theorem exists_sectionBound? (h : coversLine (sectionsOf levels lines) index = true) :
    ∃ bound, sectionBound? levels (headings lines) lines.length index = some bound := by
  rw [sectionsOf, coversLine_sectionSpans, Bool.not_eq_true', List.isEmpty_eq_false_iff] at h
  exact Option.isSome_iff_exists.mp (List.isSome_max?_of_ne_nil h)

/-! ### The spans -/

/-- A span is the unit of a footer in a section, as far as the furthest section reaches. -/
theorem exists_of_mem_footerSpans (h : span ∈ footerSpans lines levels rule) :
    ∃ front link part back, lines = front ++ link :: (part ++ back) ∧ isFooterLine link = true ∧
      sectionBound? levels (headings lines) lines.length front.length =
        some (front.length + part.length) ∧
          span = ⟨front.length, front.length + unitReach rule false part⟩ := by
  rw [footerSpans, footerSpansFrom_eq_scanSpans] at h
  obtain ⟨front, link, rest, reach, rfl, -, hreach, rfl⟩ := exists_of_mem_scanSpans h
  rw [Nat.zero_add] at hreach ⊢
  obtain ⟨bound, hbound, hlink, rfl⟩ := footerReach?_eq_some_iff.mp hreach
  have hbounds := bounds_of_sectionBound? hbound
  rw [length_append_cons] at hbounds
  have hlength : (rest.take (bound - front.length)).length = bound - front.length :=
    List.length_take_of_le (by omega)
  refine ⟨front, link, rest.take (bound - front.length), rest.drop (bound - front.length), ?_,
    hlink, ?_, rfl⟩
  · rw [List.take_append_drop]
  · rw [hlength, hbound, Nat.add_sub_cancel' hbounds.1]

theorem exists_append_of_getElem? (h : lines[index]? = some line) :
    ∃ front rest, lines = front ++ line :: rest ∧ front.length = index := by
  obtain ⟨hlt, rfl⟩ := List.getElem?_eq_some_iff.mp h
  exact ⟨lines.take index, lines.drop (index + 1), by simp, List.length_take_of_le hlt.le⟩

/-- Every footer line in a section lies in a span. -/
theorem coversLine_footerSpans (hread : lines[index]? = some line)
    (hlink : isFooterLine line = true) (hin : coversLine (sectionsOf levels lines) index = true) :
    coversLine (footerSpans lines levels rule) index = true := by
  obtain ⟨bound, hbound⟩ := exists_sectionBound? hin
  obtain ⟨front, rest, rfl, rfl⟩ := exists_append_of_getElem? hread
  rw [footerSpans, footerSpansFrom_eq_scanSpans]
  have hreach : footerReach? (sectionBound? levels (headings (front ++ line :: rest))
      (front ++ line :: rest).length) rule (0 + front.length) line rest =
        some (unitReach rule false (rest.take (bound - front.length))) := by
    rw [Nat.zero_add]
    exact footerReach?_eq_some_iff.mpr ⟨bound, hbound, hlink, rfl⟩
  simpa using coversLine_scanSpans_of_reach? hreach (Nat.zero_le _)

/-- No footer line stays in a section. -/
theorem coversLine_sectionsOf_without {kept : Buffer}
    (hkept : lines.without (footerSpans lines levels rule) = kept)
    (hread : kept[index]? = some line) (hlink : isFooterLine line = true) :
    coversLine (sectionsOf levels kept) index = false := by
  have hold : NoOldFooter levels none kept := by
    rw [← hkept, without_footerSpans]
    exact noOldFooter_keptLines (Or.inl rfl)
  clear hkept
  obtain ⟨front, rest, rfl, rfl⟩ := exists_append_of_getElem? hread
  obtain ⟨hline, -⟩ := noOldFooter_of_append hold
  rw [coversLine_sectionsOf, hline.resolve_right (by simp [hlink])]
  rfl

/-- The lines of a span, and those below it in the furthest section. -/
theorem linesOf_unit (front : Buffer) (link : Line) (back : Buffer) (hreach : reach ≤ part.length) :
    Buffer.linesOf (front ++ link :: (part ++ back)) ⟨front.length, front.length + reach⟩ =
        link :: part.take reach ∧
      Buffer.linesOf (front ++ link :: (part ++ back))
        ⟨front.length + reach + 1, front.length + part.length⟩ = part.drop reach := by
  have hunit : front.length + reach + 1 = front.length + (link :: part.take reach).length := by
    rw [List.length_cons, List.length_take_of_le hreach]
    rfl
  have habove : (front ++ link :: part.take reach).length = front.length + reach + 1 := by
    rw [List.length_append, hunit]
  have hbelow : front.length + part.length + 1 =
      (front ++ link :: part.take reach).length + (part.drop reach).length := by
    rw [habove, List.length_drop]
    omega
  have hparts : front ++ link :: (part ++ back) =
      front ++ link :: part.take reach ++ (part.drop reach ++ back) := by
    rw [List.append_assoc, List.cons_append, ← List.append_assoc (part.take reach),
      List.take_append_drop]
  constructor
  · rw [hparts, linesOf_middle front (link :: part.take reach) _ hunit]
  · rw [hparts, ← List.append_assoc, ← habove, linesOf_middle _ (part.drop reach) back hbelow]

/-- A span is a whole unit, and lies in the furthest section around its footer. -/
theorem isUnit_of_mem_footerSpans (hrule : isBlank rule = false)
    (h : span ∈ footerSpans lines levels rule) :
    IsUnit rule (lines.linesOf span) ∧
      ∃ around, IsFurthest (sectionsOf levels lines) span.first around ∧ span.last ≤ around.last ∧
        StopsBefore rule (lines.linesOf span) (lines.linesOf ⟨span.last + 1, around.last⟩) := by
  obtain ⟨front, link, part, back, rfl, hlink, hbound, rfl⟩ := exists_of_mem_footerSpans h
  have hreach := unitReach_le_length rule false part
  obtain ⟨around, haround, hlast⟩ := exists_isFurthest hbound
  obtain ⟨hunit, hbelow⟩ := linesOf_unit front link back hreach
  rw [hunit]
  refine ⟨isUnit_cons hrule hlink (goesWith_take_unitReach rule false part), around, haround,
    ?_, ?_⟩
  · rw [hlast]
    exact Nat.add_le_add_left hreach _
  · rw [hlast, hbelow]
    exact stopsBefore_drop_unitReach [link] fun hruled => by cases hruled

/-- The spans that the stage of the footers takes out are the units of the footers in sections:
they lie apart and hold no heading, each is a whole unit within the furthest section around its
footer, and behind them no footer is left in a section. -/
theorem footerSpans_takeUnits (lines : Buffer) (levels : List Nat) (hr : List Char)
    (hblank : isBlank (ruleLine hr) = false) (hhash : (ruleLine hr).head? ≠ some '#') :
    TakesUnits lines levels (ruleLine hr) (footerSpans lines levels (ruleLine hr)) where
  tidy := tidySpans_footerSpans lines levels (ruleLine hr)
  plain := fun _ hspan => (isUnit_of_mem_footerSpans hblank hspan).1.isHeadingLine_eq_false
    (ruleLine_ne_nil hr) hhash
  units := fun _ hspan => (isUnit_of_mem_footerSpans hblank hspan).1
  within := fun _ hspan => (isUnit_of_mem_footerSpans hblank hspan).2
  every := fun _ _ => coversLine_footerSpans
  left := fun _ _ => coversLine_sectionsOf_without rfl

/-- Two units in a section within another one: stacked footers with a rule line each, blank lines
between them and behind them, and a footer that a heading cuts off from the rule line below. -/
def stackedLinks : Buffer :=
  ["## A".toList, "a".toList, backToTop, [], "---".toList, "[[#top|↩️Back to Top]]".toList, [],
    "--- ".toList, [], "### B".toList, backToTop, "### C".toList, "---".toList]

theorem footerSpans_takeUnits_stackedLinks :
    footerSpans stackedLinks [2, 3] (ruleLine []) = [⟨2, 7⟩, ⟨10, 10⟩] ∧
      TakesUnits stackedLinks [2, 3] (ruleLine [])
        (footerSpans stackedLinks [2, 3] (ruleLine [])) :=
  ⟨by decide +kernel, footerSpans_takeUnits stackedLinks [2, 3] [] (by decide) (by decide)⟩

end Waymark
