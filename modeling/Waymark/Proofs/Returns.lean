import Mathlib.Data.List.TakeWhile
import Waymark.Proofs.LineEnds
import Waymark.Proofs.Outline

/-!
# Headings and line ends

A note that is arranged is written as one text, and the next time it is read, the text is cut
at its line feeds again. A line that ends in a carriage return loses it on the way. Most
headings are the same headings without it. A heading whose text is nothing but the carriage
return is none any more. A line that holds line feeds is read as several lines, so that
headings can appear in it.

## Main results

* `headingOfLine?_withoutReturn` — a heading without its carriage return
* `outline_relined_of_quiet` — what is read again of lines that bring no new headings
* `outline_relined_of_kept` — what is read again of lines that lose no headings
-/

namespace Waymark

variable {lines : Buffer} {line rule : Line}

theorem isBlank_append (text more : List Char) :
    isBlank (text ++ more) = (isBlank text && isBlank more) :=
  List.all_append

/-- A blank behind a text does not make it other than closing hashes. -/
theorem isClosingHashes_append_return (text : List Char) :
    isClosingHashes (text ++ ['\r']) = isClosingHashes text := by
  have hreturn : isBlankChar '\r' = true := by decide
  have hhash : ∀ rest : List Char, (rest ++ ['\r']).dropWhile (· == '#') =
      rest.dropWhile (· == '#') ++ ['\r'] := by
    intro rest
    rw [List.dropWhile_append]
    split
    · next h => rw [List.isEmpty_iff.mp h]; rfl
    · rfl
  rw [isClosingHashes, isClosingHashes, trimStart, trimStart, List.dropWhile_append]
  split
  · next h =>
    rw [List.isEmpty_iff.mp h, List.dropWhile_cons_of_pos hreturn]
    rfl
  · rw [hhash, isBlank_append]
    simp [isBlank, hreturn]

theorem withoutClosingHashes_append_return (text : List Char) :
    withoutClosingHashes (text ++ ['\r']) = withoutClosingHashes text := by
  induction text with
  | nil =>
    have hreturn : isClosingHashes ['\r'] = true := by decide
    simp [withoutClosingHashes, hreturn]
  | cons c text ih =>
    have hclosing := isClosingHashes_append_return (c :: text)
    rw [List.cons_append] at hclosing ⊢
    rw [withoutClosingHashes, withoutClosingHashes, hclosing, ih]

theorem headingText_append_return {text : List Char} (h : '\n' ∉ text) :
    headingText (text ++ ['\r']) = headingText text := by
  have htake : ∀ rest : List Char, '\n' ∉ rest → rest.takeWhile (· != '\n') = rest := by
    intro rest hrest
    rw [List.takeWhile_eq_self_iff]
    intro c hc
    rw [bne_iff_ne]
    rintro rfl
    exact hrest hc
  rw [headingText, headingText, htake text h, htake _ (by simp [h]),
    withoutClosingHashes_append_return]

theorem headingText_of_isBlank {rest : List Char} (h : isBlank rest = true) :
    headingText rest = [] := by
  have hblank : isBlank (rest.takeWhile (· != '\n')) = true :=
    List.all_eq_true.mpr fun c hc =>
      List.all_eq_true.mp h c ((List.takeWhile_prefix _).subset hc)
  rw [headingText]
  cases htake : rest.takeWhile (· != '\n') with
  | nil => rfl
  | cons c more =>
    rw [htake] at hblank
    have hclosing : isClosingHashes (c :: more) = true := by
      rw [isClosingHashes, trimStart, List.dropWhile_eq_nil_iff.mpr (List.all_eq_true.mp hblank)]
      rfl
    rw [withoutClosingHashes, if_pos hclosing]

/-- A gap that leaves no text leaves one when a carriage return is put behind it, if it is one
blank. -/
theorem isBlank_of_afterGap?_append_return {gap more : List Char} (hfeed : '\n' ∉ gap)
    (hstarts : startsText gap = true) (hnone : afterGap? gap = none)
    (hsome : afterGap? (gap ++ ['\r']) = some more) : more = ['\r'] ∧ isBlank gap = true := by
  match gap with
  | [] => cases hstarts
  | [c] =>
    cases hc : isBlankChar c with
    | true =>
      have hmore : afterGap? [c, '\r'] = some ['\r'] := by
        have hreturn : afterGap? ['\r'] = none := by decide
        rw [afterGap?, if_pos hc, hreturn]
        rfl
      rw [List.singleton_append, hmore, Option.some.injEq] at hsome
      exact ⟨hsome.symm, by simp [isBlank, hc]⟩
    | false =>
      rw [List.singleton_append, afterGap?_eq_none_of_head hc] at hsome
      cases hsome
  | c :: d :: gap =>
    -- Behind one blank there would be a text, so the gap does not even start.
    have hc : isBlankChar c = false := by
      cases hc : isBlankChar c with
      | false => rfl
      | true =>
        have hd : d ≠ '\n' := by
          rintro rfl
          exact hfeed (by simp)
        rw [afterGap?, if_pos hc, Option.or_eq_none_iff] at hnone
        simp [startsText, hd] at hnone
    rw [List.cons_append, afterGap?_eq_none_of_head hc] at hsome
    cases hsome

/-- What follows a gap when a carriage return is put behind the text: the same, with the carriage
return behind it, unless nothing else than blanks follows. -/
theorem afterGap?_append_return {gap rest : List Char} (hfeed : '\n' ∉ gap)
    (h : afterGap? gap = some rest) :
    ∃ rest', afterGap? (gap ++ ['\r']) = some rest' ∧
      (rest' = rest ++ ['\r'] ∨ rest' = ['\r'] ∧ isBlank rest = true) := by
  induction gap with
  | nil => simp [afterGap?] at h
  | cons c gap ih =>
    have hfeed' : '\n' ∉ gap := fun hmem => hfeed (List.mem_cons_of_mem c hmem)
    simp only [afterGap?] at h
    split at h
    · next hc =>
      cases hgap : afterGap? gap with
      | some more =>
        simp only [hgap, Option.some_or, Option.some.injEq] at h
        obtain ⟨rest', hrest', hcases⟩ := ih hfeed' (h ▸ hgap)
        exact ⟨rest', by simp [afterGap?, hc, hrest'], hcases⟩
      | none =>
        simp only [hgap, Option.none_or, Option.ite_none_right_eq_some, Option.some.injEq] at h
        obtain ⟨hstarts, rfl⟩ := h
        cases hlong : afterGap? (gap ++ ['\r']) with
        | none =>
          refine ⟨gap ++ ['\r'], ?_, Or.inl rfl⟩
          have hstarts' : startsText (gap ++ ['\r']) = true := by
            cases gap with
            | nil => cases hstarts
            | cons d gap => exact hstarts
          simp [afterGap?, hc, hlong, hstarts']
        | some more =>
          -- The carriage return alone now starts a text, so the gap was one of blanks.
          exact ⟨more, by simp [afterGap?, hc, hlong],
            Or.inr (isBlank_of_afterGap?_append_return hfeed' hstarts hgap hlong)⟩
    · cases h

/-- A heading stays the heading that it is when a carriage return is put behind it. -/
theorem headingOfLine?_append_return (hfeed : '\n' ∉ line) {found : Nat × List Char}
    (h : headingOfLine? line = some found) : headingOfLine? (line ++ ['\r']) = some found := by
  have htake : (line ++ ['\r']).takeWhile (· == '#') = line.takeWhile (· == '#') := by
    rw [List.takeWhile_append]
    split
    · next hall =>
      rw [List.takeWhile_cons_of_neg (by decide), List.append_nil,
        (List.takeWhile_prefix _).eq_of_length hall]
    · rfl
  have hle : (line.takeWhile (· == '#')).length ≤ line.length :=
    (List.takeWhile_prefix _).length_le
  rw [headingOfLine?] at h ⊢
  rw [htake]
  split at h
  · next hlevel =>
    rw [if_pos hlevel, List.drop_append_of_le_length hle]
    obtain ⟨rest, hrest, rfl⟩ := Option.map_eq_some_iff.mp h
    have hfeed' : '\n' ∉ line.drop (line.takeWhile (· == '#')).length :=
      fun hmem => hfeed (List.mem_of_mem_drop hmem)
    obtain ⟨rest', hrest', hcases⟩ := afterGap?_append_return hfeed' hrest
    have htext : headingText rest' = headingText rest := by
      -- The return stands at the end of the text, where it is trimmed, or the text is blank.
      rcases hcases with rfl | ⟨rfl, hblank⟩
      · exact headingText_append_return fun hmem =>
          hfeed' ((afterGap?_isSuffix hrest).subset hmem)
      · rw [headingText_of_isBlank hblank]
        decide
    rw [hrest', Option.map_some, htext]
  · cases h

/-- A line reads as it does with a carriage return behind it, or else the carriage return is what
makes it a heading. -/
theorem headingOfLine?_withoutReturn (hfeed : '\n' ∉ line)
    (h : isHeadingLine line = true → isHeadingLine (withoutReturn line) = true) :
    headingOfLine? (withoutReturn line) = headingOfLine? line := by
  rw [withoutReturn] at h ⊢
  split at h
  · next hlast =>
    rw [if_pos hlast]
    have hline : line = line.dropLast ++ ['\r'] := (List.dropLast_append_getLast? _ hlast).symm
    have hfeed' : '\n' ∉ line.dropLast := fun hmem =>
      hfeed ((List.dropLast_prefix line).subset hmem)
    cases hshort : headingOfLine? line.dropLast with
    | some found =>
      rw [hline, headingOfLine?_append_return hfeed' hshort]
    | none =>
      cases hlong : headingOfLine? line with
      | none => rfl
      | some found =>
        rw [isHeadingLine, isHeadingLine, hlong, hshort] at h
        exact absurd (h rfl) (by decide)
  · next hlast => rw [if_neg hlast]

/-- Without its carriage return, a line is the heading that it was, or none. -/
theorem outline_withoutReturn_sublist (hfeed : '\n' ∉ line) :
    (outline [withoutReturn line]).Sublist (outline [line]) := by
  cases hkept : isHeadingLine (withoutReturn line) with
  | true =>
    rw [outline_singleton, outline_singleton, headingOfLine?_withoutReturn hfeed fun _ => hkept]
  | false =>
    rw [outline_singleton, isHeadingLine_eq_false_iff.mp hkept]
    exact List.nil_sublist _

theorem outline_withoutReturn_eq_iff (hfeed : '\n' ∉ line) :
    outline [withoutReturn line] = outline [line] ↔
      (isHeadingLine line = true → isHeadingLine (withoutReturn line) = true) := by
  rw [outline_singleton, outline_singleton]
  constructor
  · intro heq hline
    obtain ⟨level, text, hpair⟩ := isHeadingLine_iff.mp hline
    rw [hpair] at heq
    cases hshort : headingOfLine? (withoutReturn line) with
    | some found => rw [isHeadingLine, hshort]; rfl
    | none => rw [hshort] at heq; cases heq
  · intro h
    rw [headingOfLine?_withoutReturn hfeed h]

theorem outline_closedLines (hfeed : '\n' ∉ line) :
    outline (closedLines line) = outline [withoutReturn line] := by
  rw [closedLines_of_not_mem hfeed]

/-! ### Lines that are read again -/

theorem outline_eq_flatMap (lines : Buffer) :
    outline lines = lines.flatMap fun line => outline [line] := by
  induction lines with
  | nil => rfl
  | cons line lines ih => rw [outline_cons, ih, List.flatMap_cons]

theorem outline_flatMap (lines : Buffer) (f : Line → Buffer) :
    outline (lines.flatMap f) = lines.flatMap fun line => outline (f line) := by
  induction lines with
  | nil => rfl
  | cons line lines ih => rw [List.flatMap_cons, outline_append, ih, List.flatMap_cons]

/-- Where each part is within its counterpart, the whole is equal only if all parts are. -/
theorem append_eq_append_iff_of_sublist {α : Type} {front front' back back' : List α}
    (hfront : front.Sublist front') (hback : back.Sublist back') :
    front ++ back = front' ++ back' ↔ front = front' ∧ back = back' := by
  constructor
  · intro heq
    have hlength := congrArg List.length heq
    rw [List.length_append, List.length_append] at hlength
    have hle := hfront.length_le
    have hle' := hback.length_le
    exact ⟨hfront.eq_of_length (by omega), hback.eq_of_length (by omega)⟩
  · rintro ⟨rfl, rfl⟩
    rfl

theorem flatMap_sublist_flatMap {α : Type} {f g : Line → List α}
    (h : ∀ line ∈ lines, (f line).Sublist (g line)) :
    (lines.flatMap f).Sublist (lines.flatMap g) := by
  induction lines with
  | nil => exact List.Sublist.refl _
  | cons line lines ih =>
    rw [List.forall_mem_cons] at h
    rw [List.flatMap_cons, List.flatMap_cons]
    exact h.1.append (ih h.2)

theorem flatMap_eq_flatMap_iff {α : Type} {f g : Line → List α}
    (h : ∀ line ∈ lines, (f line).Sublist (g line)) :
    lines.flatMap f = lines.flatMap g ↔ ∀ line ∈ lines, f line = g line := by
  induction lines with
  | nil => simp
  | cons line lines ih =>
    rw [List.forall_mem_cons] at h
    rw [List.flatMap_cons, List.flatMap_cons, List.forall_mem_cons,
      append_eq_append_iff_of_sublist h.1 (flatMap_sublist_flatMap h.2), ih h.2]

/-- Each line but the last one is read with its line end. -/
theorem outline_relined_concat (lines : Buffer) (line : Line) :
    outline (relined (lines ++ [line])) =
      (lines.flatMap fun line => outline (closedLines line)) ++ outline (splitLines line) := by
  rw [relined_append lines (List.cons_ne_nil line []), outline_append, outline_flatMap]
  rfl

theorem outline_concat (lines : Buffer) (line : Line) : outline (lines ++ [line]) =
    (lines.flatMap fun line => outline [line]) ++ outline [line] := by
  rw [outline_append, ← outline_eq_flatMap]

theorem isSuffix_joinLines (lines : Buffer) (line : Line) :
    line <:+ joinLines (lines ++ [line]) := by
  induction lines with
  | nil =>
    have hsame : joinLines ([] ++ [line]) = line := joinLines_singleton line
    exact hsame.symm ▸ List.suffix_refl line
  | cons first lines ih =>
    rw [List.cons_append, joinLines_cons first (by simp)]
    exact ih.trans ((List.suffix_cons _ _).trans (List.suffix_append _ _))

/-- A text that does not end in a carriage return is cut alike with and without a line end. -/
theorem closedLines_eq_splitLines {text : List Char} (h : text.getLast? ≠ some '\r') :
    closedLines text = splitLines text := by
  have hne : text.splitOn '\n' ≠ [] := List.splitOn_ne_nil _ _
  obtain ⟨front, last, hcut⟩ : ∃ front last, text.splitOn '\n' = front ++ [last] :=
    ⟨_, _, (List.dropLast_append_getLast hne).symm⟩
  have htext : joinLines (front ++ [last]) = text := by rw [← hcut, joinLines_splitOn]
  have hfeed : ∀ line ∈ front ++ [last], '\n' ∉ line := fun line hline =>
    not_mem_of_mem_splitOn (hcut ▸ hline)
  have hlast : last.getLast? ≠ some '\r' := by
    intro hreturn
    obtain ⟨before, hbefore⟩ := isSuffix_joinLines front last
    rw [htext] at hbefore
    rw [← hbefore, List.getLast?_append, hreturn] at h
    exact h rfl
  rw [closedLines, hcut, ← htext, splitLines_joinLines,
    relined_concat (fun line hline => hfeed line (List.mem_append_left _ hline))
      (hfeed last (by simp)), List.map_append, List.map_singleton,
    withoutReturn_of_getLast? hlast]

section

variable (hlines : ∀ line ∈ lines, '\n' ∉ line ∨ line = rule)
  (hheading : isHeadingLine rule = false) (hrule : rule.getLast? ≠ some '\r')
include hlines hheading hrule

/-- Where the rule line brings no headings, those are read again that do not need a carriage
return. -/
theorem outline_relined_of_quiet (hquiet : outline (splitLines rule) = []) :
    (outline (relined lines)).Sublist (outline lines) ∧
      (outline (relined lines) = outline lines ↔ ∀ line ∈ lines.dropLast,
        isHeadingLine line = true → isHeadingLine (withoutReturn line) = true) := by
  rcases List.eq_nil_or_concat lines with rfl | ⟨front, last, rfl⟩
  · have hnil : outline (relined []) = [] := by decide
    simp [hnil]
  rw [List.concat_eq_append] at hlines ⊢
  have hnil : outline [rule] = [] := outline_cons_of_not_heading hheading
  have hlast : outline (splitLines last) = outline [last] := by
    rcases hlines last (by simp) with hfeed | rfl
    · rw [splitLines_of_not_mem hfeed]
    · rw [hquiet, hnil]
  -- Line by line, what is read back has no heading that was not there.
  have hpart : ∀ line ∈ front, (outline (closedLines line)).Sublist (outline [line]) := by
    intro line hline
    rcases hlines line (List.mem_append_left _ hline) with hfeed | rfl
    · rw [outline_closedLines hfeed]
      exact outline_withoutReturn_sublist hfeed
    · rw [closedLines_eq_splitLines hrule, hquiet]
      exact List.nil_sublist _
  rw [outline_relined_concat, outline_concat, hlast, List.dropLast_concat,
    append_eq_append_iff_of_sublist (flatMap_sublist_flatMap hpart) (List.Sublist.refl _),
    flatMap_eq_flatMap_iff hpart, and_iff_left rfl]
  refine ⟨(flatMap_sublist_flatMap hpart).append (List.Sublist.refl _),
    forall₂_congr fun line hline => ?_⟩
  rcases hlines line (List.mem_append_left _ hline) with hfeed | rfl
  · rw [outline_closedLines hfeed, outline_withoutReturn_eq_iff hfeed]
  · rw [closedLines_eq_splitLines hrule, hquiet, hnil, hheading]
    simp

/-- Where no heading needs a carriage return, all are read again, and those with them that a rule
line brings. -/
theorem outline_relined_of_kept (hkept : ∀ line ∈ lines.dropLast,
      isHeadingLine line = true → isHeadingLine (withoutReturn line) = true) :
    (outline lines).Sublist (outline (relined lines)) ∧
      (outline lines = outline (relined lines) ↔
        outline (splitLines rule) = [] ∨ rule ∉ lines) := by
  rcases List.eq_nil_or_concat lines with rfl | ⟨front, last, rfl⟩
  · have hnil : outline (relined []) = [] := by decide
    simp [hnil]
  rw [List.concat_eq_append] at hlines hkept ⊢
  rw [List.dropLast_concat] at hkept
  have hnil : outline [rule] = [] := outline_cons_of_not_heading hheading
  have hclosed : outline (closedLines rule) = outline (splitLines rule) := by
    rw [closedLines_eq_splitLines hrule]
  have heq : ∀ line ∈ front, '\n' ∉ line → outline [line] = outline (closedLines line) := by
    intro line hline hfeed
    rw [outline_closedLines hfeed, (outline_withoutReturn_eq_iff hfeed).mpr (hkept line hline)]
  have heqlast : '\n' ∉ last → outline [last] = outline (splitLines last) := by
    intro hfeed
    rw [splitLines_of_not_mem hfeed]
  -- Line by line, what is read back has the heading that was there.
  have hpart : ∀ line ∈ front, (outline [line]).Sublist (outline (closedLines line)) := by
    intro line hline
    rcases hlines line (List.mem_append_left _ hline) with hfeed | rfl
    · rw [heq line hline hfeed]
    · rw [hnil]
      exact List.nil_sublist _
  have hlast : (outline [last]).Sublist (outline (splitLines last)) := by
    rcases hlines last (by simp) with hfeed | rfl
    · rw [heqlast hfeed]
    · rw [hnil]
      exact List.nil_sublist _
  rw [outline_relined_concat, outline_concat,
    append_eq_append_iff_of_sublist (flatMap_sublist_flatMap hpart) hlast,
    flatMap_eq_flatMap_iff hpart]
  refine ⟨(flatMap_sublist_flatMap hpart).append hlast, ?_, ?_⟩
  · rintro ⟨hfront, hback⟩
    by_cases hmem : rule ∈ front ++ [last]
    · left
      rcases List.mem_append.mp hmem with hmem | hmem
      · rw [← hclosed, ← hfront rule hmem, hnil]
      · rw [List.mem_singleton.mp hmem, ← hback, ← List.mem_singleton.mp hmem, hnil]
    · exact Or.inr hmem
  · intro h
    have hquiet : rule ∈ front ++ [last] → outline (splitLines rule) = [] := fun hmem =>
      h.resolve_right fun hnot => hnot hmem
    refine ⟨fun line hline => ?_, ?_⟩
    · rcases hlines line (List.mem_append_left _ hline) with hfeed | rfl
      · exact heq line hline hfeed
      · rw [hclosed, hquiet (List.mem_append_left _ hline), hnil]
    · rcases hlines last (by simp) with hfeed | rfl
      · exact heqlast hfeed
      · rw [hquiet (by simp), hnil]

end

end Waymark
