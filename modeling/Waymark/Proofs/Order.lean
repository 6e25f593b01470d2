import Mathlib.Data.List.Flatten
import Waymark.Proofs.Generated
import Waymark.Proofs.LineEnds

/-!
# The order of the lines

No stage moves a line of the note past another or copies one, so the lines that no stage writes
come out in their order, and none comes out more often than it stood in the note. Carriage
returns at the ends of lines are such lines: reading a note takes one off every line end, and no
stage puts one back. A note that comes out as it was has therefore none but at its very end, and
its lines come out as they were.

## Main definitions

* `endsInReturn` — the line has a carriage return at its end

## Main results

* `filter_arrangeLines_sublist` — lines that no stage writes come out in their order
* `arrangeLines_of_arrange_eq` — the lines of a note that comes out as it was
-/

namespace Waymark

variable {lines above below init : Buffer} {line title rule : Line} {test : Line → Bool}
variable {name : List Char} {options : Options} {levels opened : List Nat} {start : Nat}
variable {endsBlank pretty create : Bool}

/-! ### The footers -/

/-- A line that is none of those of a footer stays where it is. -/
theorem filter_placeFooters (hempty : test [] = false) (hlink : test backToTop = false)
    (hrule : test rule = false) :
    (placeFooters levels rule opened endsBlank lines).filter test = lines.filter test := by
  have hstack : ∀ count endsBlank, (footerStack rule count endsBlank).filter test = [] := by
    intro count endsBlank
    rw [List.filter_eq_nil_iff]
    intro line hline
    rcases mem_footerStack hline with rfl | rfl | rfl
    · simp [hempty]
    · simp [hlink]
    · simp [hrule]
  induction lines generalizing opened endsBlank with
  | nil => exact hstack _ _
  | cons line lines ih =>
    rw [placeFooters, List.filter_append, hstack, List.nil_append, List.filter_cons,
      List.filter_cons, ih]

theorem filter_renewFooters_sublist (hempty : test [] = false) (hlink : test backToTop = false)
    (hrule : test rule = false) :
    ((renewFooters levels rule opened endsBlank lines).filter test).Sublist
      (lines.filter test) := by
  rw [renewFooters, filter_placeFooters hempty hlink hrule]
  exact (keptLines_sublist _ _ _ _ _).filter _

/-! ### The stages up to the anchor -/

theorem filter_belowGap (hempty : test [] = false) :
    (belowGap lines).filter test = lines.filter test := by
  match lines with
  | [] => rfl
  | [] :: rest => exact (List.filter_cons_of_neg (by simp [hempty])).symm
  | (c :: line) :: rest => rfl

theorem filter_ensureEmptyAt_zero (hempty : test [] = false) :
    (ensureEmptyAt lines 0).filter test = lines.filter test := by
  rw [ensureEmptyAt_zero]
  split
  · next h => rw [h]
  · rw [List.filter_cons_of_neg (by simp [hempty]), filter_belowGap hempty]

theorem filter_titleStart (hempty : test [] = false) (hfence : test fenceLine = false) :
    (titleStart lines create).1.filter test = lines.filter test := by
  have hblock : (newBlock lines create).filter test = [] := by
    rw [List.filter_eq_nil_iff]
    intro line hline
    rcases eq_of_mem_newBlock hline with rfl | rfl
    · simp [hempty]
    · simp [hfence]
  rw [titleStart_fst, List.filter_append, hblock, List.nil_append]

theorem Entitled.filter_eq (hempty : test [] = false)
    (hmade : test (titleLine (titleOfName name pretty)) = false)
    (hcut : Entitled lines start name pretty above title below) :
    (above ++ title :: below).filter test = lines.filter test := by
  cases hcut with
  | found hlines => rw [← hlines]
  | made =>
    conv => rhs; rw [← List.take_append_drop start lines]
    simp only [List.filter_append, List.filter_cons, List.filter_nil, hempty, hmade,
      filter_belowGap hempty, Bool.false_eq_true, if_false, List.append_nil]

theorem filter_arrangeTop_sublist (htop : ∀ line ∈ topLines name options, test line = false) :
    ((arrangeTop lines name options).1.filter test).Sublist (lines.filter test) := by
  have hempty : test [] = false := htop _ (by simp [topLines])
  have hanchor : test topAnchor = false := htop _ (by simp [topLines])
  obtain ⟨above, title, below, hcut, heq⟩ := arrangeTop_eq lines name options
  have hcutLines := hcut.filter_eq hempty (htop _ (by simp [topLines]))
  rw [filter_titleStart hempty (htop _ (by simp [topLines]))] at hcutLines
  have hgap : (belowGap below).filter test = below.filter test := filter_belowGap hempty
  have hbelow : ((withoutAnchors (belowGap below)).filter test).Sublist (below.filter test) := by
    rw [← hgap]
    exact List.filter_sublist.filter _
  rw [heq, ← hcutLines, List.filter_append, List.filter_append, List.filter_cons,
    List.filter_cons_of_neg (by simp [hempty]), List.filter_cons_of_neg (by simp [hanchor]),
    filter_ensureEmptyAt_zero hempty, List.filter_cons]
  refine (List.filter_sublist.filter _).append ?_
  split
  · exact hbelow.cons_cons title
  · exact hbelow

/-- Lines that no stage writes come out in their order. -/
theorem filter_arrangeLines_sublist (htop : ∀ line ∈ topLines name options, test line = false)
    (htoc : ∀ line ∈ tocListing (arrangeTop lines name options).1 options.maxDepth,
      test line = false)
    (hlink : test backToTop = false) (hrule : test (ruleLine options.rule) = false) :
    ((arrangeLines lines name options).filter test).Sublist (lines.filter test) := by
  have hempty : test [] = false := htop _ (by simp [topLines])
  rw [arrangeLines_eq]
  refine (filter_renewFooters_sublist hempty hlink hrule).trans ?_
  rw [listedLines, filter_ensureToc _ hempty htoc]
  exact ((withoutToc_sublist _).filter _).trans (filter_arrangeTop_sublist htop)

/-! ### Carriage returns -/

/-- The line has a carriage return at its end. -/
def endsInReturn (line : Line) : Bool :=
  line.getLast? == some '\r'

theorem endsInReturn_eq_false_iff : endsInReturn line = false ↔ line.getLast? ≠ some '\r' := by
  rw [endsInReturn, beq_eq_false_iff_ne]

/-- Reading makes the lines with a carriage return at their ends shorter by one character each. -/
theorem length_flatten_map_withoutReturn_le (lines : Buffer) :
    ((lines.map withoutReturn).filter endsInReturn).flatten.length +
      (lines.filter endsInReturn).length ≤ (lines.filter endsInReturn).flatten.length := by
  induction lines with
  | nil => exact Nat.le_refl 0
  | cons line lines ih =>
    cases hline : endsInReturn line with
    | false =>
      rw [List.map_cons, withoutReturn_of_getLast? (endsInReturn_eq_false_iff.mp hline),
        List.filter_cons_of_neg (by simp [hline]), List.filter_cons_of_neg (by simp [hline])]
      exact ih
    | true =>
      have hlast : line.getLast? = some '\r' := by simpa [endsInReturn] using hline
      have hpos : line.length ≠ 0 := by
        intro hzero
        rw [List.eq_nil_of_length_eq_zero hzero] at hlast
        cases hlast
      have hread : (withoutReturn line).length = line.length - 1 := by
        rw [withoutReturn, if_pos hlast, List.length_dropLast]
      rw [List.map_cons, List.filter_cons, List.filter_cons_of_pos hline, List.flatten_cons,
        List.length_append, List.length_cons]
      -- The line loses a return, whether or not another one stands in front of it.
      split
      · rw [List.flatten_cons, List.length_append, hread]
        omega
      · omega

/-- Where reading takes no carriage return from lines that it leaves in their order, there is
none. -/
theorem properLines_of_sublist (hfeed : ∀ line ∈ lines, '\n' ∉ line)
    (h : (lines.filter endsInReturn).Sublist ((relined lines).filter endsInReturn)) :
    ProperLines lines := by
  rcases List.eq_nil_or_concat' lines with rfl | ⟨init, last, rfl⟩
  · exact ⟨hfeed, by simp⟩
  · refine ⟨hfeed, ?_⟩
    rw [relined_concat (fun line hline => hfeed line (by simp [hline])) (hfeed last (by simp)),
      List.filter_append, List.filter_append, List.append_sublist_append_right] at h
    have hle := h.flatten.length_le
    have hless := length_flatten_map_withoutReturn_le init
    have hnone : init.filter endsInReturn = [] := List.eq_nil_of_length_eq_zero (by omega)
    rw [List.dropLast_concat]
    intro line hline
    exact endsInReturn_eq_false_iff.mp (by simpa using List.filter_eq_nil_iff.mp hnone line hline)

theorem ne_nil_of_needsNavigation (h : needsNavigation (.ofList (joinLines lines)) = true) :
    lines ≠ [] := by
  rintro rfl
  revert h
  decide

/-- The lines of a note that comes out as it was come out as they were. -/
theorem arrangeLines_of_arrange_eq {text name : String} (hrule : PlainRule options.normalized.rule)
    (hname : PlainName name.toList) (hneeds : needsNavigation text = true)
    (h : arrange text name options = text) :
    arrangeLines (splitLines text.toList) name.toList options.normalized =
      splitLines text.toList := by
  have hruleLine : ruleLine options.normalized.rule = options.normalized.rule :=
    ruleLine_usableRule options
  have hsource : ∀ line ∈ splitLines text.toList, '\n' ∉ line := fun _ => not_mem_of_mem_splitLines
  have hfeed : ∀ line ∈ arrangeLines (splitLines text.toList) name.toList options.normalized,
      '\n' ∉ line := fun _ =>
    newline_not_mem_of_mem_arrangeLines_normalized hname.2.1 hrule.oneLine
  -- A return at the end of a written line was at the end of a line of the note.
  have hsublist : ((arrangeLines (splitLines text.toList) name.toList options.normalized).filter
      endsInReturn).Sublist ((splitLines text.toList).filter endsInReturn) := by
    refine filter_arrangeLines_sublist (fun line hline => ?_) (fun line hline => ?_) (by decide) ?_
    · exact endsInReturn_eq_false_iff.mpr (cleanLine_of_mem_topLines hname.1 hname.2.1 hline).2
    · refine endsInReturn_eq_false_iff.mpr (cleanLine_of_mem_tocLines (fun l hl =>
        newline_not_mem_of_mem_arrangeTop hsource hname.2.1 hl) (List.mem_append_left _ hline)).2
    · rw [hruleLine]
      exact endsInReturn_eq_false_iff.mpr (getLast?_usableRule options)
  generalize hout : arrangeLines (splitLines text.toList) name.toList options.normalized = arranged
    at hfeed hsublist ⊢
  have hread := splitLines_arrange hneeds name options
  rw [h, hout] at hread
  have htext : arrange text name options = .ofList (joinLines arranged) := by
    rw [arrange, if_pos hneeds, hout]
  rw [← h, htext] at hneeds
  rw [hread] at hsublist
  rw [hread, relined_eq_self (ne_nil_of_needsNavigation hneeds)
    (properLines_of_sublist hfeed hsublist)]

end Waymark
