import Mathlib.Logic.Function.Iterate
import Waymark.Proofs.Order
import Waymark.Proofs.Outcome

/-!
# The text of a section

A line in a section, with plain text up to the heading above it, is out of the way of all stages.
A block ends at the heading, the table of contents is put in below the title, a title is made below
the frontmatter or on top, and a footer ends at the next heading. So the line keeps its heading
above it, and if it mentions an end marker it comes through any number of passes.

## Main definitions

* `opensSection` — a heading that all stages leave as it is
* `isSectionText` — a line that no stage takes for anything else than text
* `StandsInSection` — a line with such text up to such a heading above it

## Main results

* `StandsInSection.arrangeLines` — a mention in a section stays in one
* `standsInSection_iterate_arrange` — and so it does after any number of passes
-/

namespace Waymark

/-- The heading opens a section and stays as it is: it is no title, mentions no start marker and
does not end in a carriage return. -/
def opensSection (line : Line) : Bool :=
  isHeadingLine line && (titleOfLine? line).isNone && !isStartMarker line && !endsInReturn line

/-- The line is nothing that a stage looks for, but maybe an anchor, part of a footer or a mention
of an end marker. -/
def isSectionText (line : Line) : Bool :=
  !isHeadingLine line && !isFence line && !isStartMarker line && !isBareEndMarker line &&
    !endsInReturn line

/-- The line stands in a section of the buffer, below its heading and text. -/
def StandsInSection (lines : Buffer) (line : Line) : Prop :=
  ∃ head text, opensSection head = true ∧ (∀ l ∈ text ++ [line], isSectionText l = true) ∧
    head :: (text ++ [line]) <:+: lines

variable {lines more front back above below : Buffer} {line found title head rule : Line}
variable {test : Line → Bool} {levels opened : List Nat} {endsBlank : Bool}
variable {name : List Char} {options : Options}

/-! ### Where a line stands -/

theorem opensSection_iff : opensSection line = true ↔ isHeadingLine line = true ∧
    titleOfLine? line = none ∧ isStartMarker line = false ∧ line.getLast? ≠ some '\r' := by
  simp [opensSection, endsInReturn, and_assoc]

theorem isSectionText_iff : isSectionText line = true ↔ isHeadingLine line = false ∧
    isFence line = false ∧ isStartMarker line = false ∧ isBareEndMarker line = false ∧
      line.getLast? ≠ some '\r' := by
  simp [isSectionText, endsInReturn, and_assoc]

theorem StandsInSection.mono (h : StandsInSection lines line) (hwithin : lines <:+: more) :
    StandsInSection more line := by
  obtain ⟨head, text, hhead, htext, hpart⟩ := h
  exact ⟨head, text, hhead, htext, hpart.trans hwithin⟩

theorem StandsInSection.mem (h : StandsInSection lines line) : line ∈ lines := by
  obtain ⟨head, text, -, -, hpart⟩ := h
  exact hpart.subset (by simp)

/-- A line that belongs to no section has the section above it or below. -/
theorem StandsInSection.of_append_cons (h : StandsInSection (above ++ found :: below) line)
    (hopens : opensSection found = false) (hplain : isSectionText found = false) :
    StandsInSection above line ∨ StandsInSection below line := by
  obtain ⟨head, text, hhead, htext, hpart⟩ := h
  have hnot : found ∉ head :: (text ++ [line]) := by
    intro hmem
    rcases List.mem_cons.mp hmem with rfl | hmem
    · rw [hhead] at hopens
      cases hopens
    · rw [htext found hmem] at hplain
      cases hplain
  exact (infix_of_infix_append_cons hpart hnot).imp (fun hpart => ⟨head, text, hhead, htext, hpart⟩)
    fun hpart => ⟨head, text, hhead, htext, hpart⟩

/-- A section starts with its heading. -/
theorem StandsInSection.of_cons (h : StandsInSection (found :: lines) line)
    (hfound : isHeadingLine found = false) : StandsInSection lines line := by
  obtain ⟨head, text, hhead, htext, hpart⟩ := h
  rcases List.infix_cons_iff.mp hpart with hpart | hpart
  · obtain rfl : head = found := (List.cons_prefix_cons.mp hpart).1
    rw [(opensSection_iff.mp hhead).1] at hfound
    cases hfound
  · exact ⟨head, text, hhead, htext, hpart⟩

/-! ### The stages up to the anchor -/

theorem StandsInSection.belowGap (h : StandsInSection lines line) :
    StandsInSection (belowGap lines) line := by
  match lines, h with
  | [], h => exact h
  | [] :: rest, h => exact h.of_cons (by decide)
  | (c :: first) :: rest, h => exact h

theorem StandsInSection.ensureEmptyAt (h : StandsInSection lines line) :
    StandsInSection (ensureEmptyAt lines 0) line := by
  rw [ensureEmptyAt_zero]
  split
  · next hnil => rwa [hnil] at h
  · exact h.belowGap.mono (List.suffix_cons _ _).isInfix

theorem StandsInSection.withoutAnchors (h : StandsInSection lines line) (hne : line ≠ topAnchor) :
    StandsInSection (withoutAnchors lines) line := by
  obtain ⟨head, text, hhead, htext, hpart⟩ := h
  have hheadNe : head ≠ topAnchor := by
    rintro rfl
    cases hhead
  have hkept := hpart.filter (· != topAnchor)
  rw [List.filter_cons_of_pos (by simpa using hheadNe), List.filter_append,
    List.filter_cons_of_pos (by simpa using hne), List.filter_nil] at hkept
  refine ⟨head, _, hhead, fun l hl => htext l ?_, hkept⟩
  simp only [List.mem_append, List.mem_filter] at hl ⊢
  tauto

theorem StandsInSection.titleStart (h : StandsInSection lines line) (create : Bool) :
    StandsInSection (titleStart lines create).1 line := by
  rw [titleStart_fst]
  exact h.mono (List.suffix_append _ _).isInfix

theorem EndsFrontmatter.standsInSection (hends : EndsFrontmatter front)
    (h : StandsInSection (front ++ back) line) :
    StandsInSection front line ∨ StandsInSection back line := by
  obtain ⟨blanks, opening, middle, closing, hblock, rfl⟩ := hends
  have hheading := isHeadingLine_eq_false_of_isFence hblock.closes
  have hparts : blanks ++ opening :: (middle ++ [closing]) ++ back =
      (blanks ++ opening :: middle) ++ closing :: back := by simp
  rw [hparts] at h
  refine (h.of_append_cons (by simp [opensSection, hheading])
    (by simp [isSectionText, hblock.closes])).imp_left fun h => h.mono ⟨[], [closing], by simp⟩

/-- A section lies above the place where the search for the title starts, or below it. -/
theorem StandsInSection.take_or_drop (create : Bool)
    (h : StandsInSection (Waymark.titleStart lines create).1 line) :
    StandsInSection ((Waymark.titleStart lines create).1.take (Waymark.titleStart lines create).2)
        line ∨
      StandsInSection ((Waymark.titleStart lines create).1.drop (Waymark.titleStart lines create).2)
        line := by
  cases hfind : findFrontmatter lines with
  | some span =>
    obtain ⟨front, back, hends, rfl, -⟩ := exists_of_findFrontmatter hfind
    rw [titleStart_append hends] at h ⊢
    rw [List.take_left, List.drop_left]
    exact hends.standsInSection h
  | none =>
    cases create with
    | true =>
      rw [titleStart_of_create hfind] at h ⊢
      exact endsFrontmatter_fences.standsInSection h
    | false =>
      rw [titleStart_of_none hfind] at h ⊢
      exact Or.inr h

/-- Finding or making the title leaves the section above the title or below it. -/
theorem Entitled.standsInSection {create pretty : Bool}
    (hcut : Entitled (titleStart lines create).1 (titleStart lines create).2 name pretty above title
      below) (h : StandsInSection lines line) :
    StandsInSection above line ∨ StandsInSection (belowGap below) line := by
  have hstart := h.titleStart create
  have hparts := hstart.take_or_drop create
  generalize titleStart lines create = cut at hcut hstart hparts
  cases hcut with
  | found hlines _ _ htitle =>
    rw [hlines] at hstart
    obtain ⟨text, htext⟩ := Option.isSome_iff_exists.mp htitle
    have hheading : isHeadingLine title = true :=
      isHeadingLine_iff.mpr ⟨_, _, titleOfLine?_eq_some_iff.mp htext⟩
    exact (hstart.of_append_cons (by simp [opensSection, htext])
      (by simp [isSectionText, hheading])).imp_right StandsInSection.belowGap
  | made =>
    rcases hparts with h | h
    · exact Or.inl (h.mono (List.prefix_append _ _).isInfix)
    · exact Or.inr h.belowGap

theorem StandsInSection.arrangeTop (h : StandsInSection lines line) (hne : line ≠ topAnchor)
    (name : List Char) (options : Options) :
    StandsInSection (arrangeTop lines name options).1 line := by
  obtain ⟨above, title, below, hcut, htop⟩ := arrangeTop_eq lines name options
  rw [htop]
  rcases hcut.standsInSection h with h | h
  · exact (h.withoutAnchors hne).mono (List.prefix_append _ _).isInfix
  · exact (h.withoutAnchors hne).ensureEmptyAt.mono
      ((List.suffix_append [title, [], topAnchor] _).trans (List.suffix_append _ _)).isInfix

/-! ### The table of contents -/

theorem StandsInSection.withoutToc (h : StandsInSection lines line) :
    StandsInSection (withoutToc lines) line := by
  obtain ⟨head, text, hhead, htext, before, behind, rfl⟩ := h
  obtain ⟨hheading, -, hmark, -⟩ := opensSection_iff.mp hhead
  have hparts : before ++ head :: (text ++ [line]) ++ behind =
      before ++ head :: (text ++ [line] ++ behind) := by simp
  refine ⟨head, text, hhead, htext, Waymark.withoutToc before, Waymark.withoutToc behind, ?_⟩
  rw [hparts, withoutToc_append_heading hheading,
    withoutToc_cons hmark (isBareEndMarker_eq_false_of_isHeadingLine hheading),
    withoutToc_append (fun l hl => (isSectionText_iff.mp (htext l hl)).2.2.1)
      fun l hl => (isSectionText_iff.mp (htext l hl)).2.2.2.1]
  simp

/-! ### The footers -/

/-- A line that passes the test stays where others go, if none goes that passes it. -/
theorem exists_of_sublist {kept : Buffer} (hsub : kept.Sublist (front ++ line :: back))
    (hfilter : kept.filter test = (front ++ line :: back).filter test) (htest : test line = true) :
    ∃ front' back', kept = front' ++ line :: back' ∧ front'.Sublist front ∧ back'.Sublist back ∧
      back'.filter test = back.filter test := by
  obtain ⟨front', rest, rfl, hfront, hrest⟩ := List.sublist_append_iff.mp hsub
  have hlength := congrArg List.length hfilter
  simp only [List.filter_append, List.filter_cons_of_pos htest, List.length_append,
    List.length_cons] at hlength
  have hfrontLe := (hfront.filter test).length_le
  rcases List.sublist_cons_iff.mp hrest with hrest | ⟨back', rfl, hback⟩
  · have hrestLe := (hrest.filter test).length_le
    omega
  · rw [List.filter_cons_of_pos htest, List.length_cons] at hlength
    have hbackLe := (hback.filter test).length_le
    exact ⟨front', back', rfl, hfront, hback, (hback.filter test).eq_of_length (by omega)⟩

/-- No footer is put in between a heading and the text below it. -/
theorem infix_placeFooters {text : List Line} (htext : ∀ l ∈ text, isHeadingLine l = false)
    (h : head :: text <:+: lines) :
    head :: text <:+: placeFooters levels rule opened endsBlank lines := by
  obtain ⟨front, back, rfl⟩ := h
  induction front generalizing opened endsBlank with
  | nil =>
    rw [List.nil_append, List.cons_append, placeFooters, placeFooters_append_of_plain htext]
    exact (List.prefix_append (head :: text) _).isInfix.trans (List.suffix_append _ _).isInfix
  | cons first front ih =>
    rw [List.cons_append, List.cons_append, placeFooters]
    exact ih.trans ((List.suffix_cons _ _).trans (List.suffix_append _ _)).isInfix

theorem StandsInSection.renewFooters (h : StandsInSection lines line)
    (hnoHash : rule.head? ≠ some '#') (hne : rule ≠ []) (hrule : isMarkerLine rule = false)
    (hline : isMarkerLine line = true) :
    StandsInSection (renewFooters levels rule opened endsBlank lines) line := by
  obtain ⟨head, text, hhead, htext, before, behind, hparts⟩ := h
  have hheading := (opensSection_iff.mp hhead).1
  -- Headings and mentions are no part of a footer, so those of the section stay.
  have hsub := keptLines_sublist levels rule opened.head? 0 lines
  have hfilter : (keptLines levels rule opened.head? 0 lines).filter
      (fun l => isHeadingLine l || isMarkerLine l) =
        lines.filter fun l => isHeadingLine l || isMarkerLine l := by
    refine filter_keptLines (fun l hl => ?_) (fun l hl => ?_) fun l hl => ?_
    · simp [isHeadingLine_eq_false_of_isBlank hl, isMarkerLine_eq_false_of_isBlank hl]
    · have hheading : isHeadingLine l = false := by
        by_contra hheading
        rw [isMarkLine_eq_false_of_isHeadingLine hnoHash hne (by simpa using hheading)] at hl
        cases hl
      simp [hheading, isMarkerLine_eq_false_of_isMarkLine hrule hl]
    · simp [isHeadingLine_eq_false_of_isFooterLine hl, isMarkerLine_eq_false_of_isFooterLine hl]
  have hcut : lines = before ++ head :: (text ++ line :: behind) := by
    rw [← hparts]
    simp
  rw [Waymark.renewFooters]
  generalize keptLines levels rule opened.head? 0 lines = kept at hsub hfilter ⊢
  rw [hcut] at hsub hfilter
  obtain ⟨before', rest, rfl, -, hrest, hrestFilter⟩ :=
    exists_of_sublist hsub hfilter (by simp [hheading])
  obtain ⟨text', behind', rfl, htext', -, -⟩ :=
    exists_of_sublist hrest hrestFilter (by simp [hline])
  have hkept : ∀ l ∈ text' ++ [line], isSectionText l = true := by
    intro l hl
    refine htext l ?_
    rw [List.mem_append] at hl ⊢
    exact hl.imp_left fun hl => htext'.subset hl
  exact ⟨head, text', hhead, hkept, infix_placeFooters
    (fun l hl => (isSectionText_iff.mp (hkept l hl)).1) ⟨before', behind', by simp⟩⟩

/-! ### Passes -/

theorem ne_topAnchor_of_isMarkerLine (h : isMarkerLine line = true) : line ≠ topAnchor := by
  rintro rfl
  revert h
  decide

section

variable (hline : isMarkerLine line = true) (hpercent : '%' ∉ name) (hangle : '<' ∉ name)
include hline hpercent hangle

/-- Where no heading mentions a start marker, a mention that stands in a section comes out in
one. -/
theorem StandsInSection.arrangeLines (h : StandsInSection lines line) (hfeed : '\n' ∉ name)
    (hnoHash : (ruleLine options.rule).head? ≠ some '#')
    (hrule : isMarkerLine (ruleLine options.rule) = false)
    (hlines : ∀ l ∈ lines, isHeadingLine l = true → isStartMarker l = false) :
    StandsInSection (arrangeLines lines name options) line := by
  obtain ⟨above, title, below, hcut, htop⟩ := arrangeTop_eq lines name options
  obtain ⟨text, htext⟩ := hcut.headingOfLine?_title hfeed
  have htitle : title ∈ (Waymark.arrangeTop lines name options).1 := by simp [htop]
  have hmark : isStartMarker title = false :=
    isStartMarker_eq_false_of_mem_arrangeTop hpercent hangle hlines htitle
      (isHeadingLine_iff.mpr ⟨_, _, htext⟩)
  have hgap := head?_ensureEmptyAt (Waymark.withoutAnchors (Waymark.belowGap below))
  have hne := ne_topAnchor_of_isMarkerLine hline
  have hrenewed {part : Buffer} (h : StandsInSection part line) (opened : List Nat) :
      StandsInSection (Waymark.renewFooters options.footerLevels (ruleLine options.rule) opened
        false part) line :=
    h.renewFooters hnoHash (ruleLine_ne_nil _) hrule hline
  obtain ⟨tail', hout, hcases⟩ := exists_arrangeLines_of_arrangeTop htop htext hmark hgap
  rw [hout]
  rcases hcut.standsInSection h with h | h
  · exact (hrenewed (h.withoutAnchors hne).withoutToc []).mono (List.prefix_append _ _).isInfix
  · have htail := (h.withoutAnchors hne).ensureEmptyAt.withoutToc
    have htail' : StandsInSection tail' line := by
      rcases hcases with ⟨-, rfl⟩ | ⟨-, after, rfl, -, hsuffix, -⟩
      · exact htail
      · -- The table of contents stands above all sections that are left.
        have hgap' := head?_withoutToc hgap
        generalize Waymark.withoutToc _ = kept at htail hgap' hsuffix
        cases kept with
        | nil => cases htail.mem
        | cons first kept =>
          obtain rfl := hgap' first rfl
          refine (htail.of_cons (by decide)).mono (hsuffix.trans ?_).isInfix
          exact (List.suffix_append _ _).trans (List.suffix_cons _ _)
    exact (hrenewed htail' _).mono ((List.suffix_append [title, [], topAnchor] _).trans
      (List.suffix_append _ _)).isInfix

end

/-- The lines of a section are read as they were written. -/
theorem StandsInSection.relined (h : StandsInSection lines line) (hlines : ∀ l ∈ lines, '\n' ∉ l) :
    StandsInSection (relined lines) line := by
  obtain ⟨head, text, hhead, htext, hpart⟩ := h
  have hreturn : ∀ l ∈ head :: (text ++ [line]), l.getLast? ≠ some '\r' :=
    List.forall_mem_cons.mpr ⟨(opensSection_iff.mp hhead).2.2.2,
      fun l hl => (isSectionText_iff.mp (htext l hl)).2.2.2.2⟩
  exact ⟨head, text, hhead, htext, infix_relined hlines hreturn hpart⟩

/-- Reading makes no heading that mentions a start marker. -/
theorem isStartMarker_eq_false_of_mem_relined (hfeed : ∀ l ∈ lines, '\n' ∉ l)
    (hlines : ∀ l ∈ lines, isHeadingLine l = true → isStartMarker l = false)
    (h : line ∈ relined lines) (hhead : isHeadingLine line = true) :
    isStartMarker line = false := by
  rcases List.eq_nil_or_concat' lines with rfl | ⟨init, last, rfl⟩
  · rw [List.mem_singleton.mp h] at hhead
    cases hhead
  · rw [relined_concat (fun l hl => hfeed l (by simp [hl])) (hfeed last (by simp)),
      List.mem_append, List.mem_map] at h
    rcases h with ⟨source, hsource, rfl⟩ | h
    · have hmem : source ∈ init ++ [last] := by simp [hsource]
      have hread := headingOfLine?_withoutReturn (hfeed source hmem) fun _ => hhead
      have hmark := hlines source hmem (by rwa [isHeadingLine, ← hread])
      by_contra hstart
      rw [isStartMarker_of_part (withoutReturn_isPrefix source).isInfix (by simpa using hstart)]
        at hmark
      cases hmark
    · obtain rfl := List.mem_singleton.mp h
      exact hlines line (by simp) hhead

section

variable {text : String} {name : String} {options : Options}
variable (hline : isMarkerLine line = true) (hpercent : '%' ∉ name.toList)
variable (hangle : '<' ∉ name.toList) (hfeed : '\n' ∉ name.toList)
variable (hone : '\n' ∉ options.normalized.rule)
variable (hnoHash : options.normalized.rule.head? ≠ some '#')
variable (hrule : isMarkerLine options.normalized.rule = false)

include hline hpercent hangle hfeed hone hnoHash hrule

/-- A pass leaves a mention in its section, and no heading that mentions a start marker. -/
theorem standsInSection_splitLines_arrange (h : StandsInSection (splitLines text.toList) line)
    (hlines : ∀ l ∈ splitLines text.toList, isHeadingLine l = true → isStartMarker l = false) :
    StandsInSection (splitLines (arrange text name options).toList) line ∧
      ∀ l ∈ splitLines (arrange text name options).toList,
        isHeadingLine l = true → isStartMarker l = false := by
  by_cases hneeds : needsNavigation text = true
  · have hruleLine : ruleLine options.normalized.rule = options.normalized.rule :=
      ruleLine_usableRule options
    have hfeed' : ∀ l ∈ arrangeLines (splitLines text.toList) name.toList options.normalized,
        '\n' ∉ l := fun _ => newline_not_mem_of_mem_arrangeLines_normalized hfeed hone
    rw [← hruleLine] at hnoHash hrule
    rw [splitLines_arrange hneeds]
    exact ⟨(h.arrangeLines hline hpercent hangle hfeed hnoHash hrule hlines).relined hfeed',
      fun l => isStartMarker_eq_false_of_mem_relined hfeed' fun l' =>
        isStartMarker_eq_false_of_mem_arrangeLines⟩
  · rw [arrange, if_neg hneeds]
    exact ⟨h, hlines⟩

/-- Where no heading mentions a start marker, a mention that stands in a section does so after any
number of passes. -/
theorem standsInSection_iterate_arrange (h : StandsInSection (splitLines text.toList) line)
    (hlines : ∀ l ∈ splitLines text.toList, isHeadingLine l = true → isStartMarker l = false)
    (passes : Nat) :
    StandsInSection (splitLines ((arrange · name options)^[passes] text).toList) line := by
  suffices hall :
      StandsInSection (splitLines ((arrange · name options)^[passes] text).toList) line ∧
        ∀ l ∈ splitLines ((arrange · name options)^[passes] text).toList,
          isHeadingLine l = true → isStartMarker l = false from hall.1
  induction passes with
  | zero => exact ⟨h, hlines⟩
  | succ passes ih =>
    rw [Function.iterate_succ_apply']
    exact standsInSection_splitLines_arrange hline hpercent hangle hfeed hone hnoHash hrule ih.1
      ih.2

end

end Waymark
