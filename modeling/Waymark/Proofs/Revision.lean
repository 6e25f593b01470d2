import Mathlib.Data.List.TakeWhile
import Waymark.Proofs.Pieces
import Waymark.Proofs.Sections

/-!
# Revising the footers in place

The footers of one level can also be renewed section by section, from the last heading of
the level to the first: the old footer of a section is deleted where it stands, and a new
one is put below the line that is then the section's last. Nothing above a section moves
when it is revised, so the lines of all headings that are still to come stay good.

Sections of one level lie apart. As long as none of them holds two old footers, revising
them and renewing their footers in two phases comes to the same, if an old footer takes
the blank lines behind its link along only when a rule line follows them. An algorithm
that deletes these blank lines in any case agrees as well, except where the deleted lines
would have stayed visible.

## Main definitions

* `behindRuled`, `behindGap` — two ways to delete what stands behind an old link
* `reviseFooters` — the revision, from the last heading to the first
* `revisedBelow` — the same by recursion on the lines
* `HasPlainGap` — both ways to delete an old footer leave the same section

## Main results

* `reviseFooters_eq_revisedBelow` — the revision by index is the one by recursion
* `renewFooters_eq_revisedBelow` — it does what the two phases do
* `revisedBelow_eq_iff` — two revisions agree when they agree in every section
* `ensureFooters_eq_reviseFooters` — the stage is a revision in place
-/

namespace Waymark

/-- What is left of the lines behind an old link if blank lines and a rule line go with the link
together, and neither goes without the other. -/
def behindRuled (rule : Line) (rest : Buffer) : Buffer :=
  match rest.dropWhile isBlank with
  | next :: more => if isMarkLine rule next then more else rest
  | [] => rest

/-- What is left of the lines behind an old link if all blank lines below it go, and one rule line
below these. -/
def behindGap (rule : Line) (rest : Buffer) : Buffer :=
  match rest.dropWhile isBlank with
  | next :: more => if isMarkLine rule next then more else next :: more
  | [] => []

/-- The lines without the first link of a footer, `behind` telling what is left behind it. -/
def withoutOldFooter (behind : Buffer → Buffer) : List Line → List Line
  | [] => []
  | line :: rest =>
    if isFooterLine line then behind rest else line :: withoutOldFooter behind rest

/-- The lines with a footer below them. -/
def withFooterBelow (rule : Line) (lines : Buffer) : Buffer :=
  lines ++ footerLines rule (isBlank (lines.getLast?.getD []))

/-- The buffer with the footers of one level revised, from the last heading to the first. -/
def reviseFooters (level : Nat) (rule : Line) (behind : Buffer → Buffer) :
    List Heading → Buffer → Buffer
  | [], lines => lines
  | head :: later, lines =>
    let lines := reviseFooters level rule behind later lines
    if head.level = level then
      let last := sectionEnd level later lines.length
      withFooterBelow rule (lines.take (head.line + 1) ++
        withoutOldFooter behind (lines.linesOf ⟨head.line + 1, last⟩)) ++ lines.drop (last + 1)
    else lines

/-- The line is a heading of the given level. -/
def opensAt (level : Nat) (line : Line) : Bool :=
  (headingOfLine? line).any (·.1 == level)

/-- The lines from the first one on that ends a section of the given level. -/
def afterSection (level : Nat) (lines : Buffer) : Buffer :=
  lines.dropWhile (!endsSection level ·)

/-- The lines with the footers of one level revised, the last section first. -/
def revisedBelow (level : Nat) (rule : Line) (behind : Buffer → Buffer) : List Line → List Line
  | [] => []
  | line :: rest =>
    let revised := revisedBelow level rule behind rest
    if opensAt level line then
      withFooterBelow rule (line :: withoutOldFooter behind (sectionPart level revised)) ++
        afterSection level revised
    else line :: revised

/-- The sections of one level, from first to last. -/
def sectionParts (level : Nat) : List Line → List Buffer
  | [] => []
  | line :: rest =>
    if opensAt level line then sectionPart level rest :: sectionParts level rest
    else sectionParts level rest

/-- Whether blank lines behind an old link go or stay makes no difference to the section: there
are none, or a rule line follows them, or a single empty line ends the section and is what a new
footer needs above it. -/
def HasPlainGap (rule : Line) (part : Buffer) : Prop :=
  ∀ front link rest, part = front ++ link :: rest → isFooterLine link = true →
    (∀ line ∈ rest.head?, isBlank line = false) ∨
      (∃ line ∈ (rest.dropWhile isBlank).head?, isMarkLine rule line = true) ∨
        (rest = [[]] ∧ ∀ line ∈ front.getLast?, isBlank line = false)

variable {level : Nat} {rule line title : Line} {lines front back part rest : Buffer}
variable {behind behind' : Buffer → Buffer} {endsBlank : Bool}

/-! ### The end of a section -/

/-- Whether a footer needs an empty line is known by the section's own last line. -/
theorem withFooterBelow_append (rule : Line) (front : Buffer) (title : Line) (part : Buffer) :
    withFooterBelow rule (front ++ title :: part) =
      front ++ withFooterBelow rule (title :: part) := by
  rw [withFooterBelow, withFooterBelow, List.getLast?_append_cons, List.append_assoc]

/-! ### Headings that open and headings that end a section -/

theorem opensAt_of_headingOfLine? {text : List Char} {found : Nat}
    (h : headingOfLine? line = some (found, text)) : opensAt level line = (found == level) := by
  rw [opensAt, h]
  rfl

theorem opensAt_eq_false (h : isHeadingLine line = false) : opensAt level line = false := by
  rw [opensAt, isHeadingLine_eq_false_iff.mp h]
  rfl

/-- A heading of a level ends a section of that level. -/
theorem opensAt_eq_false_of_endsSection (h : endsSection level line = false) :
    opensAt level line = false := by
  cases hline : headingOfLine? line with
  | none => exact opensAt_eq_false (isHeadingLine_eq_false_iff.mpr hline)
  | some pair =>
    rw [endsSection_of_headingOfLine? hline, decide_eq_false_iff_not] at h
    rw [opensAt_of_headingOfLine? hline, beq_eq_false_iff_ne]
    omega

theorem isHeadingLine_of_opensAt (h : opensAt level line = true) : isHeadingLine line = true := by
  by_contra hplain
  rw [opensAt_eq_false (by simpa using hplain)] at h
  cases h

theorem sectionPart_append_afterSection (level : Nat) (lines : Buffer) :
    sectionPart level lines ++ afterSection level lines = lines :=
  List.takeWhile_append_dropWhile

theorem endsSection_of_head?_afterSection (h : line ∈ (afterSection level lines).head?) :
    endsSection level line = true := by
  simpa using eq_false_of_mem_head?_dropWhile h

/-- A section and what follows it are known by the heading between them. -/
theorem sectionPart_append_of_ends (hpart : ∀ line ∈ part, endsSection level line = false)
    (hback : ∀ line ∈ back.head?, endsSection level line = true) :
    sectionPart level (part ++ back) = part ∧ afterSection level (part ++ back) = back := by
  have hall : ∀ line ∈ part, (!endsSection level line) = true := fun line hline => by
    simp [hpart line hline]
  rw [sectionPart, afterSection, List.takeWhile_append_of_pos hall,
    List.dropWhile_append_of_pos hall]
  cases back with
  | nil => simp
  | cons line back => simp [hback line rfl]

theorem sectionParts_cons_of_opensAt (h : opensAt level line = true) (lines : Buffer) :
    sectionParts level (line :: lines) = sectionPart level lines :: sectionParts level lines :=
  if_pos h

theorem sectionParts_cons_of_not_opensAt (h : opensAt level line = false) (lines : Buffer) :
    sectionParts level (line :: lines) = sectionParts level lines :=
  if_neg (by simp [h])

/-! ### The revision by recursion -/

/-- Lines that open no section are left as they are. -/
theorem revisedBelow_append (hfront : ∀ line ∈ front, opensAt level line = false) :
    revisedBelow level rule behind (front ++ back) =
      front ++ revisedBelow level rule behind back := by
  induction front with
  | nil => rfl
  | cons line front ih =>
    rw [List.cons_append, revisedBelow, hfront line List.mem_cons_self,
      ih fun l hl => hfront l (List.mem_cons_of_mem _ hl)]
    rfl

theorem head?_revisedBelow (level : Nat) (rule : Line) (behind : Buffer → Buffer) (lines : Buffer) :
    (revisedBelow level rule behind lines).head? = lines.head? := by
  cases lines with
  | nil => rfl
  | cons line lines =>
    rw [revisedBelow]
    split <;> rfl

/-- The sections below do not change where the first lines end. -/
theorem revisedBelow_eq_append (level : Nat) (rule : Line) (behind : Buffer → Buffer)
    (lines : Buffer) : revisedBelow level rule behind lines =
      sectionPart level lines ++ revisedBelow level rule behind (afterSection level lines) := by
  conv => lhs; rw [← sectionPart_append_afterSection level lines]
  apply revisedBelow_append
  intro line hline
  exact opensAt_eq_false_of_endsSection (endsSection_eq_false_of_mem_sectionPart hline)

theorem sectionPart_revisedBelow (level : Nat) (rule : Line) (behind : Buffer → Buffer)
    (lines : Buffer) :
    sectionPart level (revisedBelow level rule behind lines) = sectionPart level lines ∧
      afterSection level (revisedBelow level rule behind lines) =
        revisedBelow level rule behind (afterSection level lines) := by
  rw [revisedBelow_eq_append]
  apply sectionPart_append_of_ends fun line => endsSection_eq_false_of_mem_sectionPart
  intro line hline
  rw [head?_revisedBelow] at hline
  exact endsSection_of_head?_afterSection hline

theorem revisedBelow_cons_of_opensAt (h : opensAt level line = true) (lines : Buffer) :
    revisedBelow level rule behind (line :: lines) =
      withFooterBelow rule (line :: withoutOldFooter behind (sectionPart level lines)) ++
        revisedBelow level rule behind (afterSection level lines) := by
  obtain ⟨hpart, hafter⟩ := sectionPart_revisedBelow level rule behind lines
  rw [revisedBelow, if_pos h, hpart, hafter]

theorem revisedBelow_cons_of_not_opensAt (h : opensAt level line = false) (lines : Buffer) :
    revisedBelow level rule behind (line :: lines) =
      line :: revisedBelow level rule behind lines :=
  if_neg (by simp [h])

/-! ### The revision by index -/

/-- The three parts of a buffer around a section, cut by index. -/
theorem cut_section (front : Buffer) (title : Line) (part back : Buffer) :
    (front ++ title :: (part ++ back)).take (front.length + 1) = front ++ [title] ∧
      Buffer.linesOf (front ++ title :: (part ++ back))
          ⟨front.length + 1, front.length + part.length⟩ = part ∧
        (front ++ title :: (part ++ back)).drop (front.length + part.length + 1) = back := by
  have hparts : front ++ title :: (part ++ back) = (front ++ [title]) ++ (part ++ back) := by simp
  have hlength : (front ++ [title]).length = front.length + 1 := by simp
  have hcount : front.length + part.length + 1 - (front.length + 1) = part.length := by omega
  rw [hparts]
  refine ⟨List.take_left' hlength, ?_, ?_⟩
  · rw [Buffer.linesOf, hcount, List.drop_left' hlength, List.take_left]
  · rw [← List.append_assoc]
    apply List.drop_left'
    rw [List.length_append, hlength]
    omega

/-- The sections below are revised, and the heading that ends a section stands where it was. -/
theorem sectionEnd_revisedBelow (level : Nat) (rule : Line) (behind : Buffer → Buffer)
    (front : Buffer) (line : Line) (lines : Buffer) :
    sectionEnd level (headingsFrom (front.length + 1) lines)
        (front ++ line :: revisedBelow level rule behind lines).length =
      front.length + (sectionPart level lines).length := by
  have hcount : afterSection level lines = [] →
      (front ++ line :: revisedBelow level rule behind lines).length =
        front.length + 1 + (sectionPart level lines).length := by
    intro hnil
    rw [revisedBelow_eq_append, hnil, revisedBelow, List.append_nil, length_append_cons]
  have hend := sectionEnd_headingsFrom_append
    (fun line => endsSection_eq_false_of_mem_sectionPart)
    (fun line => endsSection_of_head?_afterSection) hcount
  rwa [sectionPart_append_afterSection] at hend

/-- The revision by index, worked on the lines below some others. -/
theorem reviseFooters_append (level : Nat) (rule : Line) (behind : Buffer → Buffer)
    (front lines : Buffer) :
    reviseFooters level rule behind (headingsFrom front.length lines) (front ++ lines) =
      front ++ revisedBelow level rule behind lines := by
  induction lines generalizing front with
  | nil => rfl
  | cons line lines ih =>
    -- The sections below are revised first, and nothing above them moves.
    have hrest := ih (front ++ [line])
    rw [List.length_append, List.length_singleton, List.append_assoc, List.singleton_append,
      List.append_assoc, List.singleton_append] at hrest
    cases hline : headingOfLine? line with
    | none =>
      have hplain : isHeadingLine line = false := isHeadingLine_eq_false_iff.mpr hline
      rw [headingsFrom_cons_of_not_heading hline, hrest,
        revisedBelow_cons_of_not_opensAt (opensAt_eq_false hplain)]
    | some pair =>
      obtain ⟨found, text⟩ := pair
      rw [headingsFrom_cons_of_heading hline, reviseFooters, hrest]
      by_cases hfound : found = level
      · subst hfound
        have hopens : opensAt found line = true := by
          rw [opensAt_of_headingOfLine? hline, beq_self_eq_true]
        obtain ⟨htake, hlines, hdrop⟩ := cut_section front line (sectionPart found lines)
          (revisedBelow found rule behind (afterSection found lines))
        simp only [if_true, sectionEnd_revisedBelow]
        rw [revisedBelow_cons_of_opensAt hopens, revisedBelow_eq_append found rule behind lines,
          htake, hlines, hdrop, List.append_assoc, List.singleton_append, withFooterBelow_append,
          List.append_assoc]
      · have hopens : opensAt level line = false := by
          rw [opensAt_of_headingOfLine? hline, beq_eq_false_iff_ne]
          exact hfound
        simp only [if_neg hfound]
        rw [revisedBelow_cons_of_not_opensAt hopens]

theorem reviseFooters_eq_revisedBelow (level : Nat) (rule : Line) (behind : Buffer → Buffer)
    (lines : Buffer) : reviseFooters level rule behind (headings lines) lines =
      revisedBelow level rule behind lines :=
  reviseFooters_append level rule behind [] lines

/-! ### The two phases within a section -/

theorem unitReach_eq_zero_of_ruled (h : ∀ line ∈ rest, isFooterLine line = false) :
    unitReach rule true rest = 0 := by
  induction rest with
  | nil => rfl
  | cons line rest ih =>
    obtain ⟨hline, hrest⟩ := List.forall_mem_cons.mp h
    rw [unitReach, ih hrest, hline]
    simp

theorem behindRuled_of_mark {next : Line} {more : Buffer}
    (h : rest.dropWhile isBlank = next :: more) (hmark : isMarkLine rule next = true) :
    behindRuled rule rest = more := by
  rw [behindRuled, h]
  exact if_pos hmark

theorem behindGap_of_mark {next : Line} {more : Buffer}
    (h : rest.dropWhile isBlank = next :: more) (hmark : isMarkLine rule next = true) :
    behindGap rule rest = more := by
  rw [behindGap, h]
  exact if_pos hmark

theorem behindRuled_of_no_mark
    (h : ∀ line ∈ (rest.dropWhile isBlank).head?, isMarkLine rule line = false) :
    behindRuled rule rest = rest := by
  rw [behindRuled]
  cases hvisible : rest.dropWhile isBlank with
  | nil => rfl
  | cons next more =>
    rw [hvisible] at h
    exact if_neg (by simp [h next rfl])

theorem behindGap_of_no_mark
    (h : ∀ line ∈ (rest.dropWhile isBlank).head?, isMarkLine rule line = false) :
    behindGap rule rest = rest.dropWhile isBlank := by
  rw [behindGap]
  cases hvisible : rest.dropWhile isBlank with
  | nil => rfl
  | cons next more =>
    rw [hvisible] at h
    exact if_neg (by simp [h next rfl])

/-- A rule line follows the blank lines, or the first line behind them is none. -/
theorem mark_or_no_mark (rule : Line) (rest : Buffer) :
    (∃ next more, rest.dropWhile isBlank = next :: more ∧ isMarkLine rule next = true) ∨
      ∀ line ∈ (rest.dropWhile isBlank).head?, isMarkLine rule line = false := by
  cases rest.dropWhile isBlank with
  | nil => exact Or.inr (by simp)
  | cons next more =>
    cases hmark : isMarkLine rule next with
    | true => exact Or.inl ⟨next, more, rfl, hmark⟩
    | false => exact Or.inr (by simpa using hmark)

/-- Where no further footer stands, a link takes the blank lines below it only together with a rule
line. -/
theorem drop_unitReach (h : ∀ line ∈ rest, isFooterLine line = false) :
    rest.drop (unitReach rule false rest) = behindRuled rule rest := by
  induction rest with
  | nil => rfl
  | cons line rest ih =>
    obtain ⟨hline, hrest⟩ := List.forall_mem_cons.mp h
    have hreach := ih hrest
    have hlength := congrArg List.length hreach
    have hle := unitReach_le_length rule false rest
    rw [List.length_drop] at hlength
    rw [unitReach]
    cases hblank : isBlank line with
    | true =>
      have hvisible : (line :: rest).dropWhile isBlank = rest.dropWhile isBlank :=
        List.dropWhile_cons_of_pos hblank
      have hshorter := (List.dropWhile_sublist isBlank (l := rest)).length_le
      rcases mark_or_no_mark rule rest with ⟨next, more, hnext, hmark⟩ | hmark
      · -- The unit ends with the rule line, behind at least one line of the rest.
        rw [behindRuled_of_mark hnext hmark] at hreach hlength
        rw [hnext, List.length_cons] at hshorter
        rw [behindRuled_of_mark (hvisible.trans hnext) hmark]
        cases hcount : unitReach rule false rest with
        | zero => omega
        | succ count =>
          rw [hcount] at hreach
          exact hreach
      · rw [behindRuled_of_no_mark hmark] at hlength
        rw [behindRuled_of_no_mark (by rwa [hvisible])]
        have hzero : unitReach rule false rest = 0 := by omega
        rw [hzero]
        rfl
    | false =>
      have hvisible : (line :: rest).dropWhile isBlank = line :: rest :=
        List.dropWhile_cons_of_neg (by simp [hblank])
      rw [unitReach_eq_zero_of_ruled hrest, hline]
      cases hmark : isMarkLine rule line with
      | true =>
        rw [behindRuled_of_mark hvisible hmark]
        rfl
      | false =>
        rw [behindRuled_of_no_mark (by simpa [hvisible] using hmark)]
        rfl

/-- A heading that ends the outermost section leaves open what it would leave open outside of all
sections. -/
theorem nextCover_of_endsSection (h : endsSection level line = true) (levels : List Nat) :
    nextCover levels (some level) line = nextCover levels none line := by
  obtain ⟨found, text, hline⟩ := isHeadingLine_iff.mp (isHeadingLine_of_endsSection h)
  rw [endsSection_of_headingOfLine? hline, decide_eq_true_eq] at h
  rw [nextCover_of_heading hline, nextCover_of_heading hline, Option.filter_some,
    if_neg (by simpa using h)]
  rfl

theorem keptLines_of_ends (hback : ∀ line ∈ back.head?, endsSection level line = true)
    (levels : List Nat) (rule : Line) :
    keptLines levels rule (some level) 0 back = keptLines levels rule none 0 back := by
  cases back with
  | nil => rfl
  | cons line back =>
    have hends : endsSection level line = true := hback line rfl
    have hfooter : isFooterLine line = false :=
      isFooterLine_eq_false_of_isHeadingLine (isHeadingLine_of_endsSection hends)
    rw [keptLines_cons_of_kept (Or.inr hfooter), keptLines_cons_of_kept (Or.inr hfooter),
      nextCover_of_endsSection hends]

/-- Within a section, the lines that a footer reaches over go. -/
theorem keptLines_inside_section (hpart : ∀ line ∈ part, endsSection level line = false)
    {count : Nat} (hcount : count ≤ part.length) (levels : List Nat) (rule : Line)
    (back : Buffer) : keptLines levels rule (some level) count (part ++ back) =
      keptLines levels rule (some level) 0 (part.drop count ++ back) := by
  induction part generalizing count with
  | nil =>
    obtain rfl : count = 0 := Nat.le_zero.mp hcount
    rfl
  | cons line part ih =>
    obtain ⟨hline, hrest⟩ := List.forall_mem_cons.mp hpart
    cases count with
    | zero => rfl
    | succ count =>
      rw [List.cons_append, keptLines, nextCover_of_not_endsSection hline, List.drop_succ_cons]
      exact ih hrest (Nat.le_of_succ_le_succ hcount)

/-- Within a section, the lines stay that hold no footer. -/
theorem keptLines_of_no_footer (hpart : ∀ line ∈ part, endsSection level line = false)
    (hfooter : ∀ line ∈ part, isFooterLine line = false) (levels : List Nat) (rule : Line)
    (back : Buffer) : keptLines levels rule (some level) 0 (part ++ back) =
      part ++ keptLines levels rule (some level) 0 back := by
  induction part with
  | nil => rfl
  | cons line part ih =>
    obtain ⟨hline, hrest⟩ := List.forall_mem_cons.mp hpart
    obtain ⟨hkept, hkeptRest⟩ := List.forall_mem_cons.mp hfooter
    rw [List.cons_append, keptLines_cons_of_kept (Or.inr hkept), nextCover_of_not_endsSection hline,
      ih hrest hkeptRest]
    rfl

/-- What stays of a section with at most one old footer. -/
theorem keptLines_section (hpart : ∀ line ∈ part, endsSection level line = false)
    (hback : ∀ line ∈ back.head?, endsSection level line = true)
    (hcount : part.countP isFooterLine ≤ 1) (levels : List Nat) (rule : Line) :
    keptLines levels rule (some level) 0 (part ++ back) =
      withoutOldFooter (behindRuled rule) part ++ keptLines levels rule none 0 back := by
  induction part with
  | nil => exact keptLines_of_ends hback levels rule
  | cons line part ih =>
    obtain ⟨hline, hrest⟩ := List.forall_mem_cons.mp hpart
    rw [List.countP_cons] at hcount
    rw [List.cons_append, withoutOldFooter]
    cases hfooter : isFooterLine line with
    | false =>
      rw [hfooter] at hcount
      rw [keptLines_cons_of_kept (Or.inr hfooter), nextCover_of_not_endsSection hline,
        ih hrest hcount]
      rfl
    | true =>
      -- It was the only footer, so nothing behind it is one.
      rw [hfooter, if_pos rfl] at hcount
      have hnone : ∀ l ∈ part, isFooterLine l = false := by
        have hzero : part.countP isFooterLine = 0 := by omega
        simpa using List.countP_eq_zero.mp hzero
      have hsection := (sectionPart_append_of_ends hrest hback).1
      have hreach := unitReach_le_length rule false part
      rw [keptLines_cons_of_footer hfooter, hsection, keptLines_inside_section hrest hreach,
        keptLines_of_no_footer, keptLines_of_ends hback, drop_unitReach hnone]
      · rfl
      · exact fun l hl => hrest l (List.mem_of_mem_drop hl)
      · exact fun l hl => hnone l (List.mem_of_mem_drop hl)

theorem nextOpened_of_not_opensAt (h : opensAt level line = false) :
    nextOpened [level] [] line = [] := by
  cases hline : headingOfLine? line with
  | none => exact nextOpened_of_not_heading (isHeadingLine_eq_false_iff.mpr hline)
  | some pair =>
    rw [opensAt_of_headingOfLine? hline, beq_eq_false_iff_ne] at h
    rw [nextOpened_of_heading hline]
    simp [h]

theorem nextOpened_of_not_endsSection (h : endsSection level line = false) :
    nextOpened [level] [level] line = [level] := by
  rw [nextOpened_cons_of_stays h, nextOpened_of_not_opensAt (opensAt_eq_false_of_endsSection h)]

/-- An open section gets its footer where it ends. -/
theorem placeFooters_section (hpart : ∀ line ∈ part, endsSection level line = false)
    (hback : ∀ line ∈ back.head?, endsSection level line = true) (rule : Line)
    (endsBlank other : Bool) :
    placeFooters [level] rule [level] endsBlank (part ++ back) =
      part ++ footerLines rule ((part.getLast?.map isBlank).getD endsBlank) ++
        placeFooters [level] rule [] other back := by
  induction part generalizing endsBlank with
  | nil =>
    cases back with
    | nil => simp [placeFooters, footerStack]
    | cons line back =>
      -- The line ends the section, and so its footer stands right above.
      have hends : endsSection level line = true := hback line rfl
      have hcount : closingCount [level] line = 1 := by simp [closingCount, hends]
      have hnone : closingCount [] line = 0 := rfl
      rw [List.nil_append, placeFooters, placeFooters, hcount, hnone, nextOpened_cons_of_ends hends]
      simp [footerStack]
  | cons line part ih =>
    obtain ⟨hline, hrest⟩ := List.forall_mem_cons.mp hpart
    have hcount : closingCount [level] line = 0 := by simp [closingCount, hline]
    rw [List.cons_append, placeFooters, hcount, nextOpened_of_not_endsSection hline, ih hrest,
      List.getLast?_cons]
    cases part.getLast? <;> rfl

theorem behindRuled_sublist (rule : Line) (rest : Buffer) :
    (behindRuled rule rest).Sublist rest := by
  rcases mark_or_no_mark rule rest with ⟨next, more, hnext, hmark⟩ | hmark
  · rw [behindRuled_of_mark hnext hmark]
    have hvisible := List.dropWhile_sublist isBlank (l := rest)
    rw [hnext] at hvisible
    exact (List.sublist_cons_self next more).trans hvisible
  · rw [behindRuled_of_no_mark hmark]

theorem withoutOldFooter_sublist (hbehind : ∀ rest, (behind rest).Sublist rest) (lines : Buffer) :
    (withoutOldFooter behind lines).Sublist lines := by
  induction lines with
  | nil => exact List.Sublist.refl _
  | cons line lines ih =>
    rw [withoutOldFooter]
    split
    · exact (hbehind lines).cons line
    · exact ih.cons_cons line

theorem getLast?_isBlank (title : Line) (part : Buffer) :
    isBlank ((title :: part).getLast?.getD []) =
      (part.getLast?.map isBlank).getD (isBlank title) := by
  rw [List.getLast?_cons]
  cases part.getLast? <;> rfl

/-- The two phases revise an open section. -/
theorem renewFooters_section (hpart : ∀ line ∈ part, endsSection level line = false)
    (hback : ∀ line ∈ back.head?, endsSection level line = true)
    (hcount : part.countP isFooterLine ≤ 1) (rule : Line) (title : Line) (other : Bool) :
    title :: renewFooters [level] rule [level] (isBlank title) (part ++ back) =
      withFooterBelow rule (title :: withoutOldFooter (behindRuled rule) part) ++
        renewFooters [level] rule [] other back := by
  have hsublist := withoutOldFooter_sublist (behindRuled_sublist rule) part
  have hkept : ∀ line ∈ withoutOldFooter (behindRuled rule) part, endsSection level line = false :=
    fun line hline => hpart line (hsublist.subset hline)
  -- Outside of the section the next line stays, so it still ends the section.
  have hnext : ∀ line ∈ (keptLines [level] rule none 0 back).head?,
      endsSection level line = true := by
    cases back with
    | nil => simp [keptLines]
    | cons line back => simpa [keptLines_cons_of_kept] using hback
  rw [renewFooters, List.head?_cons, keptLines_section hpart hback hcount,
    placeFooters_section hkept hnext rule _ other, withFooterBelow, getLast?_isBlank]
  simp [renewFooters]

theorem nextOpened_of_opensAt (h : opensAt level line = true) :
    nextOpened [level] [] line = [level] := by
  obtain ⟨found, text, hline⟩ := isHeadingLine_iff.mp (isHeadingLine_of_opensAt h)
  rw [opensAt_of_headingOfLine? hline, beq_iff_eq] at h
  rw [nextOpened_of_heading hline]
  simp [h]

/-- Nothing is done to lines that open no section. -/
theorem renewFooters_append_of_not_opensAt (hfront : ∀ line ∈ front, opensAt level line = false)
    (rule : Line) (endsBlank other : Bool) (back : Buffer) :
    renewFooters [level] rule [] endsBlank (front ++ back) =
      front ++ renewFooters [level] rule [] other back := by
  induction front generalizing endsBlank with
  | nil =>
    cases back with
    | nil => rfl
    | cons line back =>
      rw [List.nil_append, List.nil_append, renewFooters_nil_cons, renewFooters_nil_cons]
  | cons line front ih =>
    obtain ⟨hline, hrest⟩ := List.forall_mem_cons.mp hfront
    rw [List.cons_append, renewFooters_nil_cons, nextOpened_of_not_opensAt hline, ih hrest]
    rfl

/-- The two phases come to the revision of every section, where no section holds two old footers. -/
theorem renewFooters_eq_revisedBelow
    (hcount : ∀ part ∈ sectionParts level lines, part.countP isFooterLine ≤ 1) (rule : Line)
    (endsBlank : Bool) : renewFooters [level] rule [] endsBlank lines =
      revisedBelow level rule (behindRuled rule) lines := by
  induction lines generalizing endsBlank with
  | nil => rfl
  | cons line lines ih =>
    rw [renewFooters_nil_cons]
    cases hopens : opensAt level line with
    | false =>
      rw [sectionParts_cons_of_not_opensAt hopens] at hcount
      rw [nextOpened_of_not_opensAt hopens, ih hcount, revisedBelow_cons_of_not_opensAt hopens]
    | true =>
      rw [sectionParts_cons_of_opensAt hopens] at hcount
      obtain ⟨hhere, hlater⟩ := List.forall_mem_cons.mp hcount
      -- The lines of the section open none, so the rest is renewed behind them alone.
      have hafter : renewFooters [level] rule [] true (afterSection level lines) =
          revisedBelow level rule (behindRuled rule) (afterSection level lines) := by
        have hrest := ih hlater true
        have hplain : ∀ l ∈ sectionPart level lines, opensAt level l = false := fun l hl =>
          opensAt_eq_false_of_endsSection (endsSection_eq_false_of_mem_sectionPart hl)
        have hrenewed := renewFooters_append_of_not_opensAt hplain rule true true
          (afterSection level lines)
        rw [sectionPart_append_afterSection, hrest, revisedBelow_eq_append] at hrenewed
        exact (List.append_cancel_left hrenewed).symm
      have hpart : ∀ l ∈ sectionPart level lines, endsSection level l = false :=
        fun _ => endsSection_eq_false_of_mem_sectionPart
      have hnext : ∀ l ∈ (afterSection level lines).head?, endsSection level l = true :=
        fun _ => endsSection_of_head?_afterSection
      have hsection := renewFooters_section hpart hnext hhere rule line true
      rw [sectionPart_append_afterSection, hafter] at hsection
      rw [nextOpened_of_opensAt hopens, revisedBelow_cons_of_opensAt hopens, hsection]

/-! ### Two ways to delete an old footer -/

theorem withoutOldFooter_of_no_footer (h : ∀ line ∈ lines, isFooterLine line = false) :
    withoutOldFooter behind lines = lines := by
  induction lines with
  | nil => rfl
  | cons line lines ih =>
    obtain ⟨hline, hrest⟩ := List.forall_mem_cons.mp h
    rw [withoutOldFooter, if_neg (by simp [hline]), ih hrest]

theorem withoutOldFooter_append_cons {link : Line}
    (hfront : ∀ line ∈ front, isFooterLine line = false) (hlink : isFooterLine link = true) :
    withoutOldFooter behind (front ++ link :: rest) = front ++ behind rest := by
  induction front with
  | nil => exact if_pos hlink
  | cons line front ih =>
    obtain ⟨hline, hrest⟩ := List.forall_mem_cons.mp hfront
    rw [List.cons_append, withoutOldFooter, if_neg (by simp [hline]), ih hrest]
    rfl

theorem behindGap_sublist (rule : Line) (rest : Buffer) : (behindGap rule rest).Sublist rest := by
  have hvisible := List.dropWhile_sublist isBlank (l := rest)
  rcases mark_or_no_mark rule rest with ⟨next, more, hnext, hmark⟩ | hmark
  · rw [behindGap_of_mark hnext hmark]
    rw [hnext] at hvisible
    exact (List.sublist_cons_self next more).trans hvisible
  · rwa [behindGap_of_no_mark hmark]

/-- A section with at most one old footer holds none, or is cut by it. -/
theorem no_footer_or_cut (hcount : part.countP isFooterLine ≤ 1) :
    (∀ line ∈ part, isFooterLine line = false) ∨
      ∃ front link rest, part = front ++ link :: rest ∧ isFooterLine link = true ∧
        (∀ line ∈ front, isFooterLine line = false) ∧
          ∀ line ∈ rest, isFooterLine line = false := by
  induction part with
  | nil => exact Or.inl (by simp)
  | cons line part ih =>
    rw [List.countP_cons] at hcount
    cases hline : isFooterLine line with
    | false =>
      rw [hline] at hcount
      rcases ih hcount with hnone | ⟨front, link, rest, rfl, hlink, hfront, hrest⟩
      · exact Or.inl (List.forall_mem_cons.mpr ⟨hline, hnone⟩)
      · exact Or.inr ⟨line :: front, link, rest, rfl, hlink,
          List.forall_mem_cons.mpr ⟨hline, hfront⟩, hrest⟩
    | true =>
      rw [hline, if_pos rfl] at hcount
      have hzero : part.countP isFooterLine = 0 := by omega
      exact Or.inr ⟨[], line, part, rfl, hline, by simp,
        by simpa using List.countP_eq_zero.mp hzero⟩

/-- Lines are cut at their only footer in one way. -/
theorem cut_at_footer_unique {link link' : Line} {front' rest' : Buffer}
    (hfront : ∀ line ∈ front, isFooterLine line = false)
    (hrest : ∀ line ∈ rest, isFooterLine line = false) (hlink : isFooterLine link = true)
    (hlink' : isFooterLine link' = true) (h : front ++ link :: rest = front' ++ link' :: rest') :
    front = front' ∧ rest = rest' := by
  have hnone : front.countP isFooterLine = 0 := List.countP_eq_zero.mpr (by simpa using hfront)
  have hnone' : rest.countP isFooterLine = 0 := List.countP_eq_zero.mpr (by simpa using hrest)
  -- The other cut is at a footer too, and there is one only.
  have hcount := congrArg (List.countP isFooterLine) h
  rw [List.countP_append, List.countP_append, List.countP_cons_of_pos hlink,
    List.countP_cons_of_pos hlink', hnone, hnone'] at hcount
  obtain ⟨hsame, -, hbelow⟩ := eq_of_countP isFooterLine h hlink hlink' (by omega)
  exact ⟨hsame, hbelow⟩

/-- The gap behind the only old footer of a section. -/
theorem hasPlainGap_append_cons_iff {link : Line} (hlink : isFooterLine link = true)
    (hfront : ∀ line ∈ front, isFooterLine line = false)
    (hrest : ∀ line ∈ rest, isFooterLine line = false) :
    HasPlainGap rule (front ++ link :: rest) ↔
      (∀ line ∈ rest.head?, isBlank line = false) ∨
        (∃ line ∈ (rest.dropWhile isBlank).head?, isMarkLine rule line = true) ∨
          (rest = [[]] ∧ ∀ line ∈ front.getLast?, isBlank line = false) := by
  refine ⟨fun h => h front link rest rfl hlink, fun h => ?_⟩
  intro front' link' rest' heq hlink'
  obtain ⟨rfl, rfl⟩ := cut_at_footer_unique hfront hrest hlink hlink' heq
  exact h

/-- Blank lines that stay at the end of a section make no difference only if they are the empty
line that a footer gets anyway. -/
theorem withFooterBelow_append_blanks_iff (hblank : isBlank title = false)
    (hrest : ∀ line ∈ rest, isBlank line = true) (hsome : rest ≠ []) :
    withFooterBelow rule (title :: (front ++ rest)) = withFooterBelow rule (title :: front) ↔
      rest = [[]] ∧ ∀ line ∈ front.getLast?, isBlank line = false := by
  have hlast : ((front ++ rest).getLast?.map isBlank).getD (isBlank title) = true := by
    rw [List.getLast?_append_of_ne_nil _ hsome, List.getLast?_eq_some_getLast hsome]
    exact hrest _ (List.getLast_mem hsome)
  rw [withFooterBelow, withFooterBelow, getLast?_isBlank, getLast?_isBlank, hlast, hblank,
    List.cons_append, List.cons_append, List.append_assoc, List.cons_inj_right,
    List.append_cancel_left_eq]
  cases hfront : (front.getLast?.map isBlank).getD false with
  | true =>
    -- The line above the blank ones is blank as well, so they would be too many.
    refine iff_of_false (by simp [hsome]) ?_
    rintro ⟨-, hvisible⟩
    cases hend : front.getLast? with
    | none => simp [hend] at hfront
    | some line => simp [hend, hvisible line hend] at hfront
  | false =>
    have hvisible : ∀ line ∈ front.getLast?, isBlank line = false := by
      intro line hline
      rw [hline] at hfront
      exact hfront
    have hfooter : footerLines rule false = [[]] ++ footerLines rule true := rfl
    rw [hfooter, List.append_cancel_right_eq]
    exact (and_iff_left hvisible).symm

/-- Blank lines that stay above a visible line always make a difference. -/
theorem withFooterBelow_append_gap_ne {blanks : Buffer} (hsome : blanks ≠ []) (rule : Line)
    (front : Buffer) (next : Line) (visible : Buffer) :
    withFooterBelow rule (front ++ (blanks ++ next :: visible)) ≠
      withFooterBelow rule (front ++ next :: visible) := by
  rw [← List.append_assoc, withFooterBelow_append, withFooterBelow_append, List.append_assoc]
  intro h
  exact hsome (List.append_left_eq_self.mp (List.append_cancel_left h))

/-- Without the gap, the same footer comes out exactly if there is no gap, or if it is one empty
line at the end of a section that ends visibly. -/
theorem withFooterBelow_dropWhile_iff (hblank : isBlank title = false) :
    withFooterBelow rule (title :: (front ++ rest)) =
        withFooterBelow rule (title :: (front ++ rest.dropWhile isBlank)) ↔
      (∀ line ∈ rest.head?, isBlank line = false) ∨
        rest = [[]] ∧ ∀ line ∈ front.getLast?, isBlank line = false := by
  by_cases hhead : ∀ line ∈ rest.head?, isBlank line = false
  · have hkept : rest.dropWhile isBlank = rest := by
      cases rest with
      | nil => rfl
      | cons first more => exact List.dropWhile_cons_of_neg (by simp [hhead first rfl])
    rw [hkept]
    exact iff_of_true rfl (Or.inl hhead)
  · rw [or_iff_right hhead]
    have hsome : rest ≠ [] := by
      rintro rfl
      exact hhead (by simp)
    -- The blank lines are all there is, or a visible line follows them.
    cases hvisible : rest.dropWhile isBlank with
    | nil =>
      have hall : ∀ line ∈ rest, isBlank line = true := List.dropWhile_eq_nil_iff.mp hvisible
      rw [List.append_nil]
      exact withFooterBelow_append_blanks_iff hblank hall hsome
    | cons next visible =>
      have hcut := List.takeWhile_append_dropWhile (p := isBlank) (l := rest)
      have hblanks : rest.takeWhile isBlank ≠ [] := by
        intro hnil
        rw [hnil, List.nil_append] at hcut
        exact hhead fun line hline => eq_false_of_mem_head?_dropWhile (hcut.symm ▸ hline)
      rw [hvisible] at hcut
      refine iff_of_false ?_ ?_
      · rw [← hcut]
        exact withFooterBelow_append_gap_ne hblanks rule (title :: front) next visible
      · rintro ⟨rfl, -⟩
        cases hvisible

/-- In a section with at most one old footer, both ways to delete it leave the same exactly if the
gap behind it is plain. -/
theorem withoutOldFooter_eq_iff (hblank : isBlank title = false)
    (hcount : part.countP isFooterLine ≤ 1) :
    withFooterBelow rule (title :: withoutOldFooter (behindRuled rule) part) =
        withFooterBelow rule (title :: withoutOldFooter (behindGap rule) part) ↔
      HasPlainGap rule part := by
  rcases no_footer_or_cut hcount with hnone | ⟨front, link, rest, rfl, hlink, hfront, hrest⟩
  · rw [withoutOldFooter_of_no_footer hnone, withoutOldFooter_of_no_footer hnone]
    refine ⟨fun _ => ?_, fun _ => rfl⟩
    intro front link rest heq hlink
    rw [hnone link (by simp [heq])] at hlink
    cases hlink
  · rw [withoutOldFooter_append_cons hfront hlink, withoutOldFooter_append_cons hfront hlink,
      hasPlainGap_append_cons_iff hlink hfront hrest]
    -- Behind a mark both take the same lines. Without one they differ in the gap.
    rcases mark_or_no_mark rule rest with ⟨next, more, hnext, hmark⟩ | hmark
    · rw [behindRuled_of_mark hnext hmark, behindGap_of_mark hnext hmark]
      simp [hnext, hmark]
    · rw [behindRuled_of_no_mark hmark, behindGap_of_no_mark hmark]
      have hnomark : ¬ ∃ line ∈ (rest.dropWhile isBlank).head?, isMarkLine rule line = true := by
        rintro ⟨line, hline, htrue⟩
        rw [hmark line hline] at htrue
        cases htrue
      rw [or_iff_right hnomark]
      exact withFooterBelow_dropWhile_iff hblank

/-- No line of a revised section ends it, apart from its title. -/
theorem endsSection_eq_false_of_mem_withFooterBelow (level : Nat)
    (hrule : isHeadingLine rule = false)
    (hbehind : ∀ rest, (behind rest).Sublist rest) (title : Line) (lines : Buffer) :
    ∃ below, withFooterBelow rule (title :: withoutOldFooter behind (sectionPart level lines)) =
        title :: below ∧ ∀ line ∈ below, endsSection level line = false := by
  refine ⟨_, List.cons_append, fun line hline => ?_⟩
  rcases List.mem_append.mp hline with hkept | hfooter
  · have hmem := (withoutOldFooter_sublist hbehind (sectionPart level lines)).subset hkept
    exact endsSection_eq_false_of_mem_sectionPart hmem
  · exact endsSection_eq_false (isHeadingLine_eq_false_of_mem_footerLines hrule hfooter)

/-- Two revisions agree exactly if they agree in every section. -/
theorem revisedBelow_eq_iff (hrule : isHeadingLine rule = false)
    (hcount : ∀ part ∈ sectionParts level lines, part.countP isFooterLine ≤ 1) :
    revisedBelow level rule (behindRuled rule) lines =
        revisedBelow level rule (behindGap rule) lines ↔
      ∀ part ∈ sectionParts level lines, HasPlainGap rule part := by
  induction lines with
  | nil => simp [revisedBelow, sectionParts]
  | cons line lines ih =>
    cases hopens : opensAt level line with
    | false =>
      rw [sectionParts_cons_of_not_opensAt hopens] at hcount ⊢
      rw [revisedBelow_cons_of_not_opensAt hopens, revisedBelow_cons_of_not_opensAt hopens,
        List.cons_inj_right, ih hcount]
    | true =>
      rw [sectionParts_cons_of_opensAt hopens] at hcount ⊢
      obtain ⟨hhere, hlater⟩ := List.forall_mem_cons.mp hcount
      have hblank : isBlank line = false :=
        isBlank_eq_false_of_isHeadingLine (isHeadingLine_of_opensAt hopens)
      have hnext (behind : Buffer → Buffer) : ∀ l ∈ (revisedBelow level rule behind
          (afterSection level lines)).head?, endsSection level l = true := by
        rw [head?_revisedBelow]
        exact fun l => endsSection_of_head?_afterSection
      obtain ⟨below, hbelow, hplain⟩ := endsSection_eq_false_of_mem_withFooterBelow level hrule
        (behindRuled_sublist rule) line lines
      obtain ⟨below', hbelow', hplain'⟩ := endsSection_eq_false_of_mem_withFooterBelow level hrule
        (behindGap_sublist rule) line lines
      rw [List.forall_mem_cons, ← withoutOldFooter_eq_iff hblank hhere, ← ih hlater,
        revisedBelow_cons_of_opensAt hopens, revisedBelow_cons_of_opensAt hopens,
        revisedBelow_eq_append level rule (behindRuled rule) lines,
        revisedBelow_eq_append level rule (behindGap rule) lines, List.append_cancel_left_eq,
        hbelow, hbelow', List.cons_append, List.cons_append, List.cons_inj_right,
        List.cons_inj_right]
      -- The heading behind the section stands in both, so the sections are compared one by one.
      exact append_eq_append_iff_of_first (endsSection level) hplain hplain' (hnext _) (hnext _)

/-! ### The stage -/

/-- The sections by index have the lines of the sections by recursion. -/
theorem map_linesOf_sectionSpans (front lines : Buffer) :
    (sectionSpans [level] (front ++ lines).length (headingsFrom front.length lines)).map
        (front ++ lines).linesOf = sectionParts level lines := by
  induction lines generalizing front with
  | nil => rfl
  | cons line lines ih =>
    have hrest := ih (front ++ [line])
    have hlength : (front ++ [line]).length = front.length + 1 := by
      rw [List.length_append, List.length_singleton]
    rw [List.append_assoc, List.singleton_append, hlength] at hrest
    cases hline : headingOfLine? line with
    | none =>
      have hplain : isHeadingLine line = false := isHeadingLine_eq_false_iff.mpr hline
      rw [headingsFrom_cons_of_not_heading hline, hrest,
        sectionParts_cons_of_not_opensAt (opensAt_eq_false hplain)]
    | some pair =>
      rw [headingsFrom_cons_of_heading hline]
      cases hopens : opensAt level line with
      | false =>
        have hlevel : [level].contains pair.1 = false := by
          rw [opensAt_of_headingOfLine? hline, beq_eq_false_iff_ne] at hopens
          simp [hopens]
        rw [sectionSpans_cons_of_not_mem hlevel, hrest, sectionParts_cons_of_not_opensAt hopens]
      | true =>
        have hlevel : pair.1 = level := by
          rwa [opensAt_of_headingOfLine? hline, beq_iff_eq] at hopens
        have hmem : [level].contains pair.1 = true := by simp [hlevel]
        -- The span of a section ends with the lines before the next heading that ends it.
        have hlast : sectionEnd level (headingsFrom (front.length + 1) lines)
            (front ++ line :: lines).length = front.length + (sectionPart level lines).length := by
          rw [length_append_cons]
          exact sectionEnd_headingsFrom level front.length lines
        have hcut :=
          (cut_section front line (sectionPart level lines) (afterSection level lines)).2.1
        rw [sectionPart_append_afterSection] at hcut
        rw [sectionSpans_cons_of_mem hmem, List.map_cons, hrest,
          sectionParts_cons_of_opensAt hopens]
        dsimp only
        rw [hlevel, hlast, hcut]

theorem map_linesOf_sectionsOf (level : Nat) (lines : Buffer) :
    (sectionsOf [level] lines).map lines.linesOf = sectionParts level lines :=
  map_linesOf_sectionSpans [] lines

/-- What holds of all sections by recursion holds of all sections by index. -/
theorem forall_mem_sectionParts {test : Buffer → Prop} :
    (∀ part ∈ sectionParts level lines, test part) ↔
      ∀ span ∈ sectionsOf [level] lines, test (lines.linesOf span) := by
  rw [← map_linesOf_sectionsOf, List.forall_mem_map]

/-- Where no section of a level holds two footers, the stage does what the revision in place does
that takes the blank lines behind an old link only together with a rule line. A revision that takes
the blank lines in any case comes to the same exactly if the gap behind each old link is plain. -/
theorem ensureFooters_eq_reviseFooters {lines : Buffer} {level : Nat}
    (hcount : ∀ span ∈ sectionsOf [level] lines, (lines.linesOf span).countP isFooterLine ≤ 1)
    (rule : List Char) :
    ensureFooters lines [level] rule =
        reviseFooters level (ruleLine rule) (behindRuled (ruleLine rule)) (headings lines) lines ∧
      (ensureFooters lines [level] rule =
          reviseFooters level (ruleLine rule) (behindGap (ruleLine rule)) (headings lines) lines ↔
        ∀ span ∈ sectionsOf [level] lines,
          HasPlainGap (ruleLine rule) (lines.linesOf span)) := by
  have hparts : ∀ part ∈ sectionParts level lines, part.countP isFooterLine ≤ 1 :=
    forall_mem_sectionParts.mpr hcount
  have hstage : ensureFooters lines [level] rule =
      revisedBelow level (ruleLine rule) (behindRuled (ruleLine rule)) lines := by
    rw [ensureFooters_eq lines [level] rule true, renewFooters_eq_revisedBelow hparts]
  rw [hstage, reviseFooters_eq_revisedBelow, reviseFooters_eq_revisedBelow]
  refine ⟨rfl, ?_⟩
  rw [revisedBelow_eq_iff (isHeadingLine_ruleLine rule) hparts]
  exact forall_mem_sectionParts

/-- Two sections with an old footer each: in the first the rule line was lost, in the second the
footer stands in the middle. -/
def loneLinkNote : Buffer :=
  ["# T".toList, "## A".toList, "text".toList, backToTop, [], "## B".toList, backToTop, [],
    "***".toList, "more".toList]

theorem ensureFooters_loneLinkNote :
    (∀ span ∈ sectionsOf [2] loneLinkNote,
        (loneLinkNote.linesOf span).countP isFooterLine ≤ 1) ∧
      ensureFooters loneLinkNote [2] "***".toList =
        reviseFooters 2 (ruleLine "***".toList) (behindRuled (ruleLine "***".toList))
          (headings loneLinkNote) loneLinkNote ∧
      (ensureFooters loneLinkNote [2] "***".toList =
          reviseFooters 2 (ruleLine "***".toList) (behindGap (ruleLine "***".toList))
            (headings loneLinkNote) loneLinkNote ↔
        ∀ span ∈ sectionsOf [2] loneLinkNote,
          HasPlainGap (ruleLine "***".toList) (loneLinkNote.linesOf span)) :=
  ⟨by decide, ensureFooters_eq_reviseFooters (by decide) _⟩

/-- Blank lines below a lone link stay in the section, so deleting them in any case is not what the
stage does. -/
theorem ensureFooters_ne_behindGap :
    ¬ ∀ (lines : Buffer) (level : Nat) (rule : List Char), isBlank (ruleLine rule) = false →
      (ruleLine rule).head? ≠ some '#' → isFooterLine (ruleLine rule) = false →
      (∀ span ∈ sectionsOf [level] lines, (lines.linesOf span).countP isFooterLine ≤ 1) →
        ensureFooters lines [level] rule =
          reviseFooters level (ruleLine rule) (behindGap (ruleLine rule))
            (headings lines) lines := by
  intro h
  have hgap := h ["## A".toList, backToTop, [], "text".toList] 2 "---".toList (by decide)
    (by decide) (by decide) (by decide)
  revert hgap
  decide

end Waymark
