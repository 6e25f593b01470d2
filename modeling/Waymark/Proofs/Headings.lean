import Waymark.Proofs.Generated
import Waymark.Proofs.Returns

/-!
# Which headings come through

The stage of the title adds a heading where there is no title. All other stages leave a
sublist of the headings that they find, and so does reading the result again. So the
headings of a note come through unchanged exactly when none of them is lost on the way: none
is taken for a start marker, none lies in a footer that is renewed, and none needs a carriage
return at its end to be a heading. Besides, a rule line of several lines must bring no
headings of its own, unless it is never written.

## Main definitions

* `KeepsOutline` — all headings come through, and one is added where there is no title
* `NoHeadingLost` — no stage takes a heading out

## Main results

* `outline_without_eq_iff` — which headings go with spans
* `outline_arrangeTop` — the stages up to the anchor keep all headings
* `keepsOutline_iff` — exactly when all headings come through
-/

namespace Waymark

/-- Where the search for the title starts: below the frontmatter block, if there is one. -/
def belowFrontmatter (lines : Buffer) : Nat :=
  (findFrontmatter lines).elim 0 (·.last + 1)

/-- The headings of the arranged note are those of the note, in their order and with their texts.
If no title stands below the frontmatter block, one is added there. -/
def KeepsOutline (text name : String) (options : Options) : Prop :=
  let lines := splitLines text.toList
  let start := belowFrontmatter lines
  let arranged := outline (splitLines (arrange text name options).toList)
  if titleCount (lines.drop start) = 0 then
    ∃ title, arranged = outline (lines.take start) ++ (1, title) :: outline (lines.drop start)
  else arranged = outline lines

/-- No heading is lost when a note is arranged. -/
structure NoHeadingLost (lines : Buffer) (name : List Char) (options : Options) : Prop where
  /-- No heading mentions a start marker, the title included that may have been made. -/
  markers : ∀ line ∈ (arrangeTop lines name options).1,
    isHeadingLine line = true → isStartMarker line = false
  /-- No heading lies in a footer that is renewed. -/
  footers : ∀ span ∈ footerSpans (listedLines lines name options) options.footerLevels
      (ruleLine options.rule),
    ∀ line ∈ (listedLines lines name options).linesOf span, isHeadingLine line = false
  /-- No heading with a line end below it is one only by its carriage return. -/
  returns : ∀ line ∈ (arrangeLines lines name options).dropLast,
    isHeadingLine line = true → isHeadingLine (withoutReturn line) = true

variable {lines front back above below : Buffer} {line rule title : Line} {levels opened : List Nat}
variable {endsBlank : Bool} {spans : List Span} {index start : Nat} {name : List Char}
variable {options : Options} {pretty : Bool}

theorem keepsOutline_iff_of_title {text name : String}
    (h : titleCount
      ((splitLines text.toList).drop (belowFrontmatter (splitLines text.toList))) ≠ 0) :
    KeepsOutline text name options ↔
      outline (splitLines (arrange text name options).toList) =
        outline (splitLines text.toList) := by
  rw [KeepsOutline]
  exact iff_of_eq (if_neg h)

/-! ### Headings in spans -/

theorem outline_keptFrom_eq_iff : outline (keptFrom spans index lines) = outline lines ↔
    ∀ i line, lines[i]? = some line → coversLine spans (index + i) = true →
      isHeadingLine line = false := by
  induction lines generalizing index with
  | nil => simp [keptFrom]
  | cons line lines ih =>
    have hsub := outline_sublist (keptFrom_sublist spans (index + 1) lines)
    have hshift : (∀ i found, (line :: lines)[i]? = some found →
          coversLine spans (index + i) = true → isHeadingLine found = false) ↔
        (coversLine spans index = true → isHeadingLine line = false) ∧
          ∀ i found, lines[i]? = some found → coversLine spans (index + 1 + i) = true →
            isHeadingLine found = false := by
      constructor
      · intro h
        refine ⟨h 0 line rfl, fun i found hfound hcover => ?_⟩
        exact h (i + 1) found hfound (by rw [← hcover]; congr 1; omega)
      · rintro ⟨hfirst, hrest⟩ i found hfound hcover
        cases i with
        | zero =>
          cases hfound
          exact hfirst hcover
        | succ i => exact hrest i found hfound (by rw [← hcover]; congr 1; omega)
    rw [hshift, ← ih, keptFrom]
    cases hcover : coversLine spans index with
    | true =>
      rw [if_pos rfl]
      cases hline : isHeadingLine line with
      | false => simp [outline_cons_of_not_heading hline]
      | true =>
        obtain ⟨level, text, hpair⟩ := isHeadingLine_iff.mp hline
        -- A heading that goes is missed: what is kept of the rest has no heading to spare.
        have hlength := hsub.length_le
        rw [outline_cons, outline_singleton, hpair]
        simp only [Option.toList_some, List.singleton_append]
        constructor
        · intro heq
          have := congrArg List.length heq
          rw [List.length_cons] at this
          omega
        · rintro ⟨habsurd, -⟩
          cases habsurd trivial
    | false =>
      rw [if_neg (by simp), outline_cons, outline_cons line lines, List.append_cancel_left_eq]
      simp

theorem mem_linesOf {span : Span} : line ∈ lines.linesOf span ↔
    ∃ i, span.contains i = true ∧ lines[i]? = some line := by
  rw [Buffer.linesOf, List.mem_iff_getElem?]
  simp only [List.getElem?_take, List.getElem?_drop, Span.contains_iff]
  constructor
  · rintro ⟨i, hi⟩
    split at hi
    · exact ⟨span.first + i, ⟨by omega, by omega⟩, hi⟩
    · cases hi
  · rintro ⟨i, ⟨hfirst, hlast⟩, hi⟩
    refine ⟨i - span.first, ?_⟩
    rw [if_pos (by omega), Nat.add_sub_cancel' hfirst]
    exact hi

/-- All headings stay where none lies in one of the spans that go. -/
theorem outline_without_eq_iff : outline (lines.without spans) = outline lines ↔
    ∀ span ∈ spans, ∀ line ∈ lines.linesOf span, isHeadingLine line = false := by
  rw [without_eq_keptFrom, outline_keptFrom_eq_iff]
  simp only [Nat.zero_add, mem_linesOf, coversLine, List.any_eq_true]
  constructor
  · rintro h span hspan line ⟨i, hcontains, hi⟩
    exact h i line hi ⟨span, hspan, hcontains⟩
  · rintro h i line hi ⟨span, hspan, hcontains⟩
    exact h span hspan line ⟨i, hcontains, hi⟩

/-! ### The stages up to the anchor -/

theorem titleCount_eq_zero_iff :
    titleCount lines = 0 ↔ ∀ line ∈ lines, titleOfLine? line = none := by
  rw [titleCount, outline_eq_filterMap, List.countP_eq_zero]
  simp only [List.mem_filterMap, decide_eq_true_eq, Prod.forall]
  constructor
  · intro h line hline
    cases htitle : titleOfLine? line with
    | none => rfl
    | some text => exact absurd rfl (h 1 text ⟨line, hline, titleOfLine?_eq_some_iff.mp htitle⟩)
  · rintro h level text ⟨line, hline, hpair⟩ rfl
    have hnone := h line hline
    rw [titleOfLine?_eq_some_iff.mpr hpair] at hnone
    cases hnone

theorem outline_withoutAnchors (lines : Buffer) : outline (withoutAnchors lines) = outline lines :=
  outline_filter fun line _ hline => by
    rw [bne_iff_ne]
    rintro rfl
    exact absurd hline (by decide)

theorem outline_belowGap (lines : Buffer) : outline (belowGap lines) = outline lines := by
  match lines with
  | [] => rfl
  | [] :: rest => exact (outline_cons_of_not_heading (by decide)).symm
  | (c :: line) :: rest => rfl

theorem outline_ensureEmptyAt_zero (lines : Buffer) :
    outline (ensureEmptyAt lines 0) = outline lines := by
  rw [ensureEmptyAt_zero]
  split
  · next h => rw [h]
  · rw [outline_cons_of_not_heading (by decide), outline_belowGap]

/-- Looking for a frontmatter block, or making one, moves no heading over the place where the
search for the title starts. -/
theorem outline_titleStart (lines : Buffer) (create : Bool) :
    outline ((titleStart lines create).1.take (titleStart lines create).2) =
        outline (lines.take (belowFrontmatter lines)) ∧
      outline ((titleStart lines create).1.drop (titleStart lines create).2) =
        outline (lines.drop (belowFrontmatter lines)) := by
  cases hfind : findFrontmatter lines with
  | some span =>
    rw [titleStart, ensureFrontmatter, belowFrontmatter, hfind]
    exact ⟨rfl, rfl⟩
  | none =>
    rw [belowFrontmatter, hfind]
    cases create with
    | false =>
      rw [titleStart_of_none hfind]
      exact ⟨rfl, rfl⟩
    | true =>
      rw [titleStart_of_create hfind]
      have hfences : outline [fenceLine, fenceLine] = [] := by decide
      exact ⟨hfences, outline_cons_of_not_heading (by decide)⟩

/-- The headings after the stages up to the anchor: those of the note, and a title if there was
none below the frontmatter block. -/
theorem outline_arrangeTop (lines : Buffer) (hfeed : '\n' ∉ name) (options : Options) :
    if titleCount (lines.drop (belowFrontmatter lines)) = 0 then
      ∃ title, outline (arrangeTop lines name options).1 =
        outline (lines.take (belowFrontmatter lines)) ++
          (1, title) :: outline (lines.drop (belowFrontmatter lines))
    else outline (arrangeTop lines name options).1 = outline lines := by
  obtain ⟨above, title, below, hcut, htop⟩ := arrangeTop_eq lines name options
  obtain ⟨htake, hdrop⟩ := outline_titleStart lines options.createFrontmatter
  have hcount : titleCount ((titleStart lines options.createFrontmatter).1.drop
      (titleStart lines options.createFrontmatter).2) =
        titleCount (lines.drop (belowFrontmatter lines)) := by
    rw [titleCount, hdrop, titleCount]
  have hempty : isHeadingLine [] = false := by decide
  have hanchor : isHeadingLine topAnchor = false := by decide
  -- Anchors and empty lines are no headings, so only the title and the lines around it count.
  have hparts : outline (arrangeTop lines name options).1 =
      outline above ++ outline [title] ++ outline below := by
    rw [htop, outline_append, outline_withoutAnchors, outline_cons title ([] :: _),
      outline_cons_of_not_heading hempty, outline_cons_of_not_heading hanchor,
      outline_ensureEmptyAt_zero, outline_withoutAnchors, outline_belowGap, List.append_assoc]
  rw [hparts]
  cases hcut with
  | found hlines hstart hfirst htitle =>
    have hsome : titleCount (lines.drop (belowFrontmatter lines)) ≠ 0 := by
      intro hzero
      have hnone := titleCount_eq_zero_iff.mp (hcount.trans hzero) title (by
        rw [hlines, List.drop_append_of_le_length hstart]
        simp)
      rw [hnone] at htitle
      cases htitle
    rw [if_neg hsome, List.append_assoc, ← outline_append, ← outline_append,
      List.singleton_append, ← hlines]
    rw [← List.take_append_drop (titleStart lines options.createFrontmatter).2
      (titleStart lines options.createFrontmatter).1, outline_append, htake, hdrop,
      ← outline_append, List.take_append_drop]
  | made hnone =>
    rw [if_pos (hcount.symm.trans (titleCount_eq_zero_iff.mpr hnone))]
    obtain ⟨text, hpair⟩ := exists_headingOfLine?_titleLine hfeed options.prettifyTitle
    refine ⟨text, ?_⟩
    rw [outline_append, outline_cons_of_not_heading hempty, outline_nil, List.append_nil, htake,
      outline_singleton, hpair, outline_cons_of_not_heading hempty, outline_belowGap, hdrop,
      Option.toList_some, List.append_assoc, List.singleton_append]

/-! ### Rule lines that bring headings -/

/-- Without a section of a configured level, no footer is put in. -/
theorem placeFooters_eq_self (h : ∀ head ∈ outline lines, head.1 ∉ levels) :
    placeFooters levels rule [] endsBlank lines = lines := by
  induction lines generalizing endsBlank with
  | nil => rfl
  | cons line lines ih =>
    rw [outline_cons, List.forall_mem_append] at h
    have hopened : nextOpened levels [] line = [] := by
      refine List.eq_nil_iff_forall_not_mem.mpr fun level hlevel => ?_
      rcases mem_nextOpened_iff.mp hlevel with ⟨hopen, -⟩ | ⟨hmem, text, hline⟩
      · cases hopen
      · exact h.1 (level, text) (by simp [outline_singleton, hline]) hmem
    rw [placeFooters, hopened, ih h.2]
    rfl

/-- With an open section, or a section of a configured level, a footer is put in. -/
theorem rule_mem_placeFooters (h : opened ≠ [] ∨ ∃ head ∈ outline lines, head.1 ∈ levels) :
    rule ∈ placeFooters levels rule opened endsBlank lines := by
  induction lines generalizing opened endsBlank with
  | nil =>
    obtain ⟨level, inner, rfl⟩ := List.exists_cons_of_ne_nil (h.resolve_right (by simp))
    simp [placeFooters, footerStack, footerLines]
  | cons line lines ih =>
    rw [placeFooters, List.mem_append, List.mem_cons]
    cases hclosing : closingCount opened line with
    | succ count =>
      left
      simp [footerStack, footerLines]
    | zero =>
      refine Or.inr (Or.inr (ih ?_))
      rw [outline_cons, outline_singleton] at h
      rcases h with hopened | ⟨head, hhead, hlevel⟩
      · -- No open section ends here, so those that are open stay open.
        obtain ⟨level, inner, rfl⟩ := List.exists_cons_of_ne_nil hopened
        have hopen := List.countP_eq_zero.mp hclosing level List.mem_cons_self
        exact Or.inl (List.ne_nil_of_mem
          (mem_nextOpened_iff.mpr (Or.inl ⟨List.mem_cons_self, by simpa using hopen⟩)))
      · rcases List.mem_append.mp hhead with hhead | hhead
        · exact Or.inl (List.ne_nil_of_mem
            (mem_nextOpened_iff.mpr (Or.inr ⟨hlevel, head.2, Option.mem_toList.mp hhead⟩)))
        · exact Or.inr ⟨head, hhead, hlevel⟩

/-! ### The whole note -/

theorem sublist_eq_iff {α : Type} {first middle last : List α} (hfirst : first.Sublist middle)
    (hlast : middle.Sublist last) : first = last ↔ first = middle ∧ middle = last := by
  constructor
  · rintro rfl
    have heq := hfirst.antisymm hlast
    exact ⟨heq, heq.symm⟩
  · rintro ⟨rfl, rfl⟩
    rfl

/-- The stages of the table of contents and of the footers lose no heading exactly where none
mentions a start marker and none lies in a footer. -/
theorem outline_arrangeLines (lines : Buffer) (name : List Char) (options : Options) :
    (outline (arrangeLines lines name options)).Sublist
        (outline (arrangeTop lines name options).1) ∧
      (NoHeadingLost lines name options ↔
        outline (arrangeLines lines name options) = outline (arrangeTop lines name options).1 ∧
          ∀ line ∈ (arrangeLines lines name options).dropLast,
            isHeadingLine line = true → isHeadingLine (withoutReturn line) = true) := by
  have hlisted : outline (listedLines lines name options) =
      outline (withoutToc (arrangeTop lines name options).1) := outline_ensureToc _ _ _
  have hplaced : outline (arrangeLines lines name options) =
      outline ((listedLines lines name options).without (footerSpans
        (listedLines lines name options) options.footerLevels (ruleLine options.rule))) := by
    rw [arrangeLines_eq, renewFooters, outline_placeFooters (isHeadingLine_ruleLine _),
      without_footerSpans]
    rfl
  -- Each of the two stages can only lose headings, so all are there where neither loses any.
  have htoc : (outline (listedLines lines name options)).Sublist
      (outline (arrangeTop lines name options).1) := by
    rw [hlisted]
    exact outline_sublist (withoutToc_sublist _)
  have hfooters : (outline (arrangeLines lines name options)).Sublist
      (outline (listedLines lines name options)) := by
    rw [hplaced, without_eq_keptFrom]
    exact outline_sublist (keptFrom_sublist _ _ _)
  refine ⟨hfooters.trans htoc, ?_⟩
  rw [sublist_eq_iff hfooters htoc, hplaced, outline_without_eq_iff, hlisted,
    outline_withoutToc_eq_iff]
  constructor
  · intro h
    exact ⟨⟨h.footers, h.markers⟩, h.returns⟩
  · rintro ⟨⟨hfooters, hmarkers⟩, hreturns⟩
    exact ⟨hmarkers, hfooters, hreturns⟩

/-- All headings come through exactly if those that the stages up to the anchor leave do. -/
theorem keepsOutline_iff_outline {text name : String} (hfeed : '\n' ∉ name.toList)
    {arranged : List (Nat × List Char)}
    (harranged : arranged = outline (splitLines (arrange text name options).toList))
    (hsub : arranged.Sublist
        (outline (arrangeTop (splitLines text.toList) name.toList options.normalized).1) ∨
      (outline (arrangeTop (splitLines text.toList) name.toList options.normalized).1).Sublist
        arranged) :
    KeepsOutline text name options ↔ arranged =
      outline (arrangeTop (splitLines text.toList) name.toList options.normalized).1 := by
  have htop := outline_arrangeTop (splitLines text.toList) hfeed options.normalized
  have heq : arranged.length =
        (outline (arrangeTop (splitLines text.toList) name.toList options.normalized).1).length →
      arranged =
        outline (arrangeTop (splitLines text.toList) name.toList options.normalized).1 := by
    intro hlength
    rcases hsub with hsub | hsub
    · exact hsub.eq_of_length hlength
    · exact (hsub.eq_of_length hlength.symm).symm
  rw [KeepsOutline, ← harranged]
  split at htop
  · next hnone =>
    rw [if_pos hnone]
    obtain ⟨title, htitle⟩ := htop
    constructor
    · rintro ⟨other, hother⟩
      refine heq ?_
      rw [hother, htitle]
      simp
    · intro h
      exact ⟨title, h.trans htitle⟩
  · next hsome => rw [if_neg hsome, htop]

/-- A rule line that brings headings is written exactly if some section ends in a footer. -/
theorem rule_not_mem_arrangeLines_iff (hlines : ∀ line ∈ lines, '\n' ∉ line) (hfeed : '\n' ∉ name)
    (hused : ruleLine options.rule = options.rule)
    (hbrings : outline (splitLines options.rule) ≠ [])
    (hsame : outline (arrangeLines lines name options) =
      outline (arrangeTop lines name options).1) :
    options.rule ∉ arrangeLines lines name options ↔
      ∀ head ∈ outline (arrangeTop lines name options).1, head.1 ∉ options.footerLevels := by
  have hheading : isHeadingLine options.rule = false := by
    rw [← hused]
    exact isHeadingLine_ruleLine _
  -- A rule of one line brings no headings, and no line of the note is one of several.
  have hseveral : '\n' ∈ options.rule := by
    by_contra hone
    rw [splitLines_of_not_mem hone, outline_cons_of_not_heading hheading] at hbrings
    exact hbrings rfl
  rw [arrangeLines_eq, hused, renewFooters] at hsame ⊢
  rw [outline_placeFooters hheading] at hsame
  rw [← hsame]
  constructor
  · intro hnot head hhead hlevel
    exact hnot (rule_mem_placeFooters (Or.inr ⟨head, hhead, hlevel⟩))
  · intro h hmem
    rw [placeFooters_eq_self h] at hmem
    refine newline_not_mem_of_mem_ensureToc (fun line hline => ?_)
      ((keptLines_sublist _ _ _ _ _).subset hmem) hseveral
    exact newline_not_mem_of_mem_arrangeTop hlines hfeed hline

/-- Where the rule line brings no headings of its own, or no heading is lost, the headings of a
note come through exactly if none is lost and no rule line that brings some is written. -/
theorem keepsOutline_iff (text name : String) (options : Options)
    (hneeds : needsNavigation text = true) (hfeed : '\n' ∉ name.toList)
    (hrule : outline (splitLines options.normalized.rule) = [] ∨
      NoHeadingLost (splitLines text.toList) name.toList options.normalized) :
    KeepsOutline text name options ↔
      NoHeadingLost (splitLines text.toList) name.toList options.normalized ∧
        (outline (splitLines options.normalized.rule) = [] ∨
          ∀ head ∈ outline (arrangeTop (splitLines text.toList) name.toList options.normalized).1,
            head.1 ∉ options.normalized.footerLevels) := by
  have hlines : ∀ line ∈ splitLines text.toList, '\n' ∉ line := fun line hline =>
    not_mem_of_mem_splitLines hline
  have hequiv := keepsOutline_iff_outline hfeed
    (congrArg outline (splitLines_arrange hneeds name options)).symm
  have hused : ruleLine options.normalized.rule = options.normalized.rule :=
    ruleLine_usableRule options
  have hheading : isHeadingLine options.normalized.rule = false := by
    rw [← hused]
    exact isHeadingLine_ruleLine _
  have hreturn : options.normalized.rule.getLast? ≠ some '\r' := getLast?_usableRule options
  have hwhere : ∀ line ∈ arrangeLines (splitLines text.toList) name.toList options.normalized,
      '\n' ∉ line ∨ line = options.normalized.rule := by
    intro line hline
    rw [← hused]
    exact newline_not_mem_of_mem_arrangeLines hlines hfeed hline
  obtain ⟨hsub, hlost⟩ :=
    outline_arrangeLines (splitLines text.toList) name.toList options.normalized
  rcases hrule with hquiet | hkept
  · -- Every stage leaves a sublist, and reading the result again leaves one too.
    obtain ⟨hread, hreturns⟩ := outline_relined_of_quiet hwhere hheading hreturn hquiet
    rw [hequiv (Or.inl (hread.trans hsub)), sublist_eq_iff hread hsub, hreturns, hlost,
      and_iff_left (Or.inl hquiet), and_comm]
  · -- All headings are there, and the rule line can only bring more.
    obtain ⟨hsame, hreturns⟩ := hlost.mp hkept
    obtain ⟨hread, hwritten⟩ := outline_relined_of_kept hwhere hheading hreturn hreturns
    rw [hsame] at hread hwritten
    rw [hequiv (Or.inr hread), eq_comm, hwritten, and_iff_right hkept]
    refine or_congr_right' fun hbrings => ?_
    exact rule_not_mem_arrangeLines_iff hlines hfeed hused hbrings hsame

/-- In a note of a title and two sections no heading is lost, and so all come through. -/
theorem keepsOutline_two_sections :
    needsNavigation "# Note\n## One\ntext\n## Two" = true ∧
      KeepsOutline "# Note\n## One\ntext\n## Two" "note" {} := by
  have hneeds : needsNavigation "# Note\n## One\ntext\n## Two" = true := by decide +kernel
  have hquiet : outline (splitLines (({} : Options).normalized.rule)) = [] := by decide +kernel
  refine ⟨hneeds, (keepsOutline_iff _ _ _ hneeds (by decide +kernel) (Or.inl hquiet)).mpr
    ⟨⟨?_, ?_, ?_⟩, Or.inl hquiet⟩⟩
  · decide +kernel
  · decide +kernel
  · decide +kernel

/-- A heading that mentions a start marker is lost: with no end marker below it, its line is a
block by itself. -/
theorem keepsOutline_false_of_marker :
    needsNavigation "# T\n## %% MDNAV:TOC START %%\nx" = true ∧
      ¬ KeepsOutline "# T\n## %% MDNAV:TOC START %%\nx" "note" {} := by
  have hneeds : needsNavigation "# T\n## %% MDNAV:TOC START %%\nx" = true := by decide +kernel
  refine ⟨hneeds, ?_⟩
  rw [keepsOutline_iff_of_title]
  · rw [splitLines_arrange hneeds]
    decide +kernel
  · decide +kernel

end Waymark
