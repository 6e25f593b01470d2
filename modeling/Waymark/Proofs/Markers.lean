import Waymark.Proofs.Recognisers

/-!
# Mentioning a marker

A line mentions a marker when some part of it spells the marker. The parts of a marker
hold neither `#` nor `|` nor `]`, so a link of a table of contents mentions a marker only
if the heading it links to does.

## Main definitions

* `Marker.Spells` — the spellings of a marker, with any blanks around its word
* `Marker.Tight` — neither the word nor a bracket of the marker starts with a blank
* `isMarkerLine` — the line mentions a start or an end marker
* `isBareMarker` — the line is a marker and blanks

## Main results

* `Marker.occursIn_iff`, `Marker.isAlone_iff` — mentioning a marker, and being one
* `isStartMarker_tocEntry` — a link mentions a start marker only if its heading does
* `isHeadingLine_eq_false_of_isBareMarker` — a marker alone is no heading
-/

namespace Waymark

/-! ### Spellings -/

namespace Marker

/-- The text spells the marker, with any blanks around the word. -/
def Spells (marker : Marker) (text : List Char) : Prop :=
  ∃ before after, isBlank before = true ∧ isBlank after = true ∧
    text = marker.opening ++ before ++ marker.word ++ after ++ marker.closing

/-- The text has a first character, which is not blank. -/
def startsVisible (text : List Char) : Bool :=
  text.head?.any (!isBlankChar ·)

/-- No part of the marker starts with a blank. -/
def Tight (marker : Marker) : Prop :=
  startsVisible marker.opening = true ∧ startsVisible marker.word = true ∧
    startsVisible marker.closing = true

variable {marker : Marker} {text rest : List Char}

theorem trimStart_append_of_isBlank {before : List Char} (hblank : isBlank before = true)
    (hvisible : startsVisible text = true) :
    trimStart (before ++ (text ++ rest)) = text ++ rest := by
  have hall : ∀ c ∈ before, isBlankChar c = true := List.all_eq_true.mp hblank
  rw [trimStart, List.dropWhile_append_of_pos hall]
  cases text with
  | nil => simp [startsVisible] at hvisible
  | cons c text =>
    have hc : isBlankChar c = false := by simpa [startsVisible] using hvisible
    rw [List.cons_append, List.dropWhile_cons_of_neg (by simp [hc])]

theorem exists_blank_append_trimStart (text : List Char) :
    ∃ before, isBlank before = true ∧ text = before ++ trimStart text :=
  ⟨text.takeWhile isBlankChar, List.all_takeWhile, List.takeWhile_append_dropWhile.symm⟩

/-- Reading a marker off the front of a text takes exactly one of its spellings. -/
theorem rest?_eq_some_iff (htight : marker.Tight) :
    marker.rest? text = some rest ↔
      ∃ spelling, marker.Spells spelling ∧ text = spelling ++ rest := by
  constructor
  · intro h
    simp only [rest?, Option.bind_eq_bind] at h
    obtain ⟨behind, hopening, h⟩ := Option.bind_eq_some_iff.mp h
    obtain ⟨more, hword, hclosing⟩ := Option.bind_eq_some_iff.mp h
    rw [after?_eq_some_iff] at hopening hword hclosing
    obtain ⟨before, hbefore, hbehind⟩ := exists_blank_append_trimStart behind
    obtain ⟨after, hafter, hmore⟩ := exists_blank_append_trimStart more
    refine ⟨_, ⟨before, after, hbefore, hafter, rfl⟩, ?_⟩
    rw [hopening, hbehind, hword, hmore, hclosing]
    simp only [List.append_assoc]
  · rintro ⟨-, ⟨before, after, hbefore, hafter, rfl⟩, rfl⟩
    obtain ⟨-, hword, hclosing⟩ := htight
    -- The blanks are skipped up to the word and the closing, which start with a visible character.
    have hfirst : after? marker.opening
        (marker.opening ++ (before ++ (marker.word ++ (after ++ (marker.closing ++ rest))))) =
          some (before ++ (marker.word ++ (after ++ (marker.closing ++ rest)))) :=
      after?_eq_some_iff.mpr rfl
    have hsecond : after? marker.word (marker.word ++ (after ++ (marker.closing ++ rest))) =
        some (after ++ (marker.closing ++ rest)) :=
      after?_eq_some_iff.mpr rfl
    simp only [List.append_assoc, rest?, Option.bind_eq_bind, hfirst, Option.bind_some,
      trimStart_append_of_isBlank hbefore hword, hsecond,
      trimStart_append_of_isBlank hafter hclosing]
    exact after?_eq_some_iff.mpr rfl

/-- A text mentions a marker where one of its parts spells it. -/
theorem occursIn_iff (htight : marker.Tight) :
    marker.occursIn text = true ↔ ∃ spelling, marker.Spells spelling ∧ spelling <:+: text := by
  rw [occursIn, anySuffix_eq_true_iff]
  constructor
  · rintro ⟨before, behind, rfl, h⟩
    obtain ⟨rest, hrest⟩ := Option.isSome_iff_exists.mp h
    obtain ⟨spelling, hspells, rfl⟩ := (rest?_eq_some_iff htight).mp hrest
    exact ⟨spelling, hspells, before, rest, by simp⟩
  · rintro ⟨spelling, hspells, before, rest, rfl⟩
    refine ⟨before, spelling ++ rest, by simp, ?_⟩
    rw [(rest?_eq_some_iff htight).mpr ⟨spelling, hspells, rfl⟩]
    rfl

/-- A text is a marker alone when it spells the marker, apart from blanks at its ends. -/
theorem isAlone_iff (htight : marker.Tight) :
    marker.isAlone text = true ↔ ∃ before spelling after, isBlank before = true ∧
      marker.Spells spelling ∧ isBlank after = true ∧ text = before ++ spelling ++ after := by
  constructor
  · intro h
    cases hrest : marker.rest? (trimStart text) with
    | none => simp [isAlone, hrest] at h
    | some after =>
      simp only [isAlone, hrest, Option.map_some, Option.getD_some] at h
      obtain ⟨spelling, hspells, htrim⟩ := (rest?_eq_some_iff htight).mp hrest
      obtain ⟨before, hbefore, htext⟩ := exists_blank_append_trimStart text
      exact ⟨before, spelling, after, hbefore, hspells, h, by rw [htext, htrim, List.append_assoc]⟩
  · rintro ⟨before, spelling, after, hbefore, hspells, hafter, rfl⟩
    have hvisible : startsVisible spelling = true := by
      obtain ⟨_, _, -, -, rfl⟩ := hspells
      have hopening := htight.1
      cases hcase : marker.opening with
      | nil => simp [hcase, startsVisible] at hopening
      | cons c opening => simpa [hcase, startsVisible] using hopening
    rw [isAlone, List.append_assoc, trimStart_append_of_isBlank hbefore hvisible,
      (rest?_eq_some_iff htight).mpr ⟨spelling, hspells, rfl⟩]
    simpa using hafter

/-- A spelling holds the characters of the marker's parts and blanks, no others. -/
theorem Spells.not_mem {spelling : List Char} {c : Char} (h : marker.Spells spelling)
    (hblank : isBlankChar c = false)
    (hc : c ∉ marker.opening ++ marker.word ++ marker.closing) : c ∉ spelling := by
  obtain ⟨before, after, hbefore, hafter, rfl⟩ := h
  have hnot : ∀ gap, isBlank gap = true → c ∉ gap := fun gap hgap hmem => by
    rw [List.all_eq_true.mp hgap c hmem] at hblank
    cases hblank
  simp only [List.mem_append, not_or] at hc ⊢
  exact ⟨⟨⟨⟨hc.1.1, hnot before hbefore⟩, hc.1.2⟩, hnot after hafter⟩, hc.2⟩

theorem Spells.mem {spelling : List Char} {c : Char} (h : marker.Spells spelling)
    (hc : c ∈ marker.opening ++ marker.word ++ marker.closing) : c ∈ spelling := by
  obtain ⟨before, after, -, -, rfl⟩ := h
  simp only [List.mem_append] at hc ⊢
  tauto

end Marker

open Marker

/-! ### The four markers -/

section Tight

variable {word : List Char} (hword : startsVisible word = true)

include hword

theorem tight_html : (html word).Tight :=
  ⟨rfl, hword, rfl⟩

theorem tight_percent : (percent word).Tight :=
  ⟨rfl, hword, rfl⟩

theorem tight_comment : (comment word).Tight :=
  ⟨rfl, hword, rfl⟩

end Tight

theorem startsVisible_startWord : startsVisible startWord = true := by
  decide

theorem startsVisible_endWord : startsVisible endWord = true := by
  decide

/-- The line holds one start marker and nothing else. -/
def isBareStartMarker (line : Line) : Bool :=
  (html startWord).isAlone line || (comment startWord).isAlone line

/-- The line holds one marker and nothing else. -/
def isBareMarker (line : Line) : Bool :=
  isBareStartMarker line || isBareEndMarker line

/-- The line mentions a start or an end marker. -/
def isMarkerLine (line : Line) : Bool :=
  isStartMarker line || isEndMarker line

variable {line : Line}

theorem isMarkerLine_eq_false_iff :
    isMarkerLine line = false ↔ isStartMarker line = false ∧ isEndMarker line = false := by
  simp [isMarkerLine]

theorem isMarkerLine_of_isStartMarker (h : isStartMarker line = true) :
    isMarkerLine line = true := by
  simp [isMarkerLine, h]

/-- A line without the opening brackets of the markers mentions none. -/
theorem isMarkerLine_eq_false_of_not_mem (hpercent : '%' ∉ line) (hangle : '<' ∉ line) :
    isMarkerLine line = false := by
  have hnone : ∀ marker : Marker, marker.Tight → '%' ∈ marker.opening ∨ '<' ∈ marker.opening →
      marker.occursIn line = false := by
    intro marker htight hopening
    by_contra hne
    obtain ⟨spelling, hspells, hwithin⟩ :=
      (occursIn_iff htight).mp (by simpa using hne)
    rcases hopening with hmem | hmem
    · exact hpercent (hwithin.subset (hspells.mem (by simp [hmem])))
    · exact hangle (hwithin.subset (hspells.mem (by simp [hmem])))
  rw [isMarkerLine_eq_false_iff, isStartMarker, isEndMarker,
    hnone _ (tight_html startsVisible_startWord) (by decide),
    hnone _ (tight_percent startsVisible_startWord) (by decide),
    hnone _ (tight_html startsVisible_endWord) (by decide),
    hnone _ (tight_percent startsVisible_endWord) (by decide)]
  exact ⟨rfl, rfl⟩

theorem isMarkerLine_eq_false_of_isBlank (h : isBlank line = true) : isMarkerLine line = false := by
  have hall : ∀ c ∈ line, isBlankChar c = true := List.all_eq_true.mp h
  exact isMarkerLine_eq_false_of_not_mem (fun hmem => absurd (hall _ hmem) (by decide))
    fun hmem => absurd (hall _ hmem) (by decide)

theorem isMarkerLine_eq_false_of_isFooterLine (h : isFooterLine line = true) :
    isMarkerLine line = false :=
  isMarkerLine_eq_false_of_not_mem
    (not_mem_of_isFooterLine (by decide) (by decide) (by decide) h)
    (not_mem_of_isFooterLine (by decide) (by decide) (by decide) h)

/-! ### Parts of lines -/

theorem occursIn_of_part {marker : Marker} (htight : marker.Tight) {part text : List Char}
    (hpart : part <:+: text) (h : marker.occursIn part = true) : marker.occursIn text = true := by
  obtain ⟨spelling, hspells, hwithin⟩ := (occursIn_iff htight).mp h
  exact (occursIn_iff htight).mpr ⟨spelling, hspells, hwithin.trans hpart⟩

theorem isStartMarker_of_part {part : Line} (hpart : part <:+: line)
    (h : isStartMarker part = true) : isStartMarker line = true := by
  rw [isStartMarker, Bool.or_eq_true] at h ⊢
  exact h.imp (occursIn_of_part (tight_html startsVisible_startWord) hpart)
    (occursIn_of_part (tight_percent startsVisible_startWord) hpart)

/-- What ends visibly and lies within a text and blanks behind it lies within the text. -/
theorem infix_of_infix_append_of_isBlank {part text after : List Char} {c : Char}
    (hafter : isBlank after = true) (hlast : part.getLast? = some c) (hc : isBlankChar c = false)
    (h : part <:+: text ++ after) : part <:+: text := by
  obtain ⟨before, behind, heq⟩ := h
  rcases List.append_eq_append_iff.mp heq with ⟨more, rfl, -⟩ | ⟨more, hmore, rfl⟩
  · exact ⟨before, more, rfl⟩
  · rcases List.eq_nil_or_concat' more with rfl | ⟨more, last, rfl⟩
    · exact ⟨before, [], by simpa using hmore⟩
    · -- The part would reach into the blanks and so end in one.
      have hends := congrArg List.getLast? hmore
      rw [List.getLast?_append, hlast, ← List.append_assoc, List.getLast?_concat] at hends
      obtain rfl : c = last := Option.some.inj hends
      rw [List.all_eq_true.mp hafter c (by simp)] at hc
      cases hc

theorem occursIn_of_append_of_isBlank {marker : Marker} {c : Char} (htight : marker.Tight)
    (hlast : marker.closing.getLast? = some c) (hc : isBlankChar c = false)
    {text after : List Char} (hafter : isBlank after = true)
    (h : marker.occursIn (text ++ after) = true) : marker.occursIn text = true := by
  obtain ⟨spelling, hspells, hwithin⟩ := (Marker.occursIn_iff htight).mp h
  have hends : spelling.getLast? = some c := by
    obtain ⟨before, after, -, -, rfl⟩ := hspells
    rw [List.getLast?_append, hlast]
    rfl
  exact (Marker.occursIn_iff htight).mpr
    ⟨spelling, hspells, infix_of_infix_append_of_isBlank hafter hends hc hwithin⟩

/-- A line that holds a mark and blanks mentions a marker only if the mark does. -/
theorem isMarkerLine_eq_false_of_isMarkLine {mark : Line} (hmark : isMarkerLine mark = false)
    (h : isMarkLine mark line = true) : isMarkerLine line = false := by
  obtain ⟨after, rfl, hafter⟩ := isMarkLine_iff.mp h
  have hword {word : List Char} (hword : startsVisible word = true) :
      ((html word).occursIn (mark ++ after) ||
          (percent word).occursIn (mark ++ after)) = true →
        ((html word).occursIn mark || (percent word).occursIn mark) = true := by
    rw [Bool.or_eq_true, Bool.or_eq_true]
    exact Or.imp
      (occursIn_of_append_of_isBlank (c := '>') (tight_html hword) rfl (by decide) hafter)
      (occursIn_of_append_of_isBlank (c := '%') (tight_percent hword) rfl (by decide) hafter)
  by_contra hne
  rw [Bool.not_eq_false, isMarkerLine, Bool.or_eq_true] at hne
  rw [isMarkerLine_eq_false_iff] at hmark
  rcases hne with hstart | hend
  · rw [isStartMarker, hword startsVisible_startWord hstart] at hmark
    cases hmark.1
  · rw [isEndMarker, hword startsVisible_endWord hend] at hmark
    cases hmark.2

/-! ### Markers alone -/

/-- A marker alone is mentioned by its line. -/
theorem occursIn_of_isAlone {word : List Char} (hword : startsVisible word = true)
    (h : ((html word).isAlone line || (comment word).isAlone line) = true) :
    ((html word).occursIn line || (percent word).occursIn line) = true := by
  rw [Bool.or_eq_true] at h ⊢
  rcases h with h | h
  · obtain ⟨before, spelling, after, -, hspells, -, rfl⟩ := (isAlone_iff (tight_html hword)).mp h
    exact Or.inl ((occursIn_iff (tight_html hword)).mpr ⟨spelling, hspells, before, after, rfl⟩)
  · obtain ⟨before, spelling, after, -, ⟨gap, gap', hgap, hgap', rfl⟩, -, rfl⟩ :=
      (isAlone_iff (tight_comment hword)).mp h
    -- Between the outer percent signs stands the spelling with single ones.
    refine Or.inr ((occursIn_iff (tight_percent hword)).mpr
      ⟨_, ⟨gap, gap', hgap, hgap', rfl⟩, before ++ ['%'], '%' :: after, ?_⟩)
    simp [comment, percent]

theorem isStartMarker_of_isBareStartMarker (h : isBareStartMarker line = true) :
    isStartMarker line = true :=
  occursIn_of_isAlone startsVisible_startWord h

theorem isEndMarker_of_isBareEndMarker (h : isBareEndMarker line = true) :
    isEndMarker line = true :=
  occursIn_of_isAlone startsVisible_endWord h

/-- A marker alone is no heading: its first visible character is a bracket of the marker. -/
theorem isHeadingLine_eq_false_of_isAlone {marker : Marker} (htight : marker.Tight)
    (hopening : marker.opening.head? ≠ some '#') (halone : marker.isAlone line = true) :
    isHeadingLine line = false := by
  obtain ⟨before, spelling, after, hbefore, ⟨gap, gap', -, -, rfl⟩, -, rfl⟩ :=
    (isAlone_iff htight).mp halone
  apply isHeadingLine_eq_false_of_head
  cases before with
  | nil =>
    cases hcase : marker.opening with
    | nil => simp [hcase, Tight, startsVisible] at htight
    | cons c opening => simpa [hcase] using hopening
  | cons c before =>
    have hblank : isBlankChar c = true := List.all_eq_true.mp hbefore c List.mem_cons_self
    have hc : c ≠ '#' := by
      rintro rfl
      exact absurd hblank (by decide)
    simpa using hc

theorem isHeadingLine_eq_false_of_isBareMarker (h : isBareMarker line = true) :
    isHeadingLine line = false := by
  simp only [isBareMarker, isBareStartMarker, isBareEndMarker, Bool.or_eq_true] at h
  rcases h with (h | h) | (h | h)
  · exact isHeadingLine_eq_false_of_isAlone (tight_html startsVisible_startWord) (by decide) h
  · exact isHeadingLine_eq_false_of_isAlone (tight_comment startsVisible_startWord) (by decide) h
  · exact isHeadingLine_eq_false_of_isAlone (tight_html startsVisible_endWord) (by decide) h
  · exact isHeadingLine_eq_false_of_isAlone (tight_comment startsVisible_endWord) (by decide) h

theorem isHeadingLine_eq_false_of_isBareEndMarker (h : isBareEndMarker line = true) :
    isHeadingLine line = false :=
  isHeadingLine_eq_false_of_isBareMarker (by simp [isBareMarker, h])

theorem isBareEndMarker_eq_false_of_isHeadingLine (h : isHeadingLine line = true) :
    isBareEndMarker line = false := by
  by_contra hbare
  rw [isHeadingLine_eq_false_of_isBareEndMarker (by simpa using hbare)] at h
  cases h

theorem not_marker_parts (h : isMarkerLine line = false) :
    isStartMarker line = false ∧ isBareEndMarker line = false := by
  obtain ⟨hstart, hend⟩ := isMarkerLine_eq_false_iff.mp h
  refine ⟨hstart, ?_⟩
  by_contra hbare
  rw [isEndMarker_of_isBareEndMarker (by simpa using hbare)] at hend
  cases hend

/-- A marker line that is a marker alone and neither opens a block nor is an end marker alone is
no marker line after all. -/
theorem isMarkerLine_eq_false_of_bare (hbare : isMarkerLine line = true → isBareMarker line = true)
    (hstart : isStartMarker line = false) (hend : isBareEndMarker line = false) :
    isMarkerLine line = false := by
  by_contra hne
  have hmarker := hbare (by simpa using hne)
  rw [isBareMarker, hend, Bool.or_false] at hmarker
  rw [isStartMarker_of_isBareStartMarker hmarker] at hstart
  cases hstart

/-! ### Links -/

theorem infix_of_infix_append_cons {α : Type} {word before after : List α} {c : α}
    (h : word <:+: before ++ c :: after) (hc : c ∉ word) :
    word <:+: before ∨ word <:+: after := by
  obtain ⟨left, right, heq⟩ := h
  rw [List.append_assoc] at heq
  -- The character is none of the word, so the word ends before it or starts behind it.
  rcases List.append_eq_append_iff.mp heq with ⟨more, rfl, hmore⟩ | ⟨more, rfl, hmore⟩
  · rcases List.append_eq_append_iff.mp hmore with ⟨more', rfl, -⟩ | ⟨more', hword, hmore'⟩
    · exact Or.inl ⟨left, more', by simp⟩
    · cases more' with
      | nil => exact Or.inl ⟨left, [], by simp [hword]⟩
      | cons d more' =>
        obtain rfl : c = d := (List.cons.inj hmore').1
        exact absurd (hword ▸ by simp) hc
  · cases more with
    | nil =>
      cases word with
      | nil => exact Or.inl List.nil_infix
      | cons d word =>
        obtain rfl : c = d := (List.cons.inj hmore).1
        exact absurd List.mem_cons_self hc
    | cons d more =>
      exact Or.inr ⟨more, right, by simpa using (List.cons.inj hmore).2.symm⟩

/-- What a link mentions, its heading's text mentions: no spelling reaches across the signs
that set off the text. -/
theorem spelling_infix_text {head : Heading} {spelling : List Char}
    (h : spelling <:+: tocEntry head) (hword : 'M' ∈ spelling) (hhash : '#' ∉ spelling)
    (hbar : '|' ∉ spelling) (hbracket : ']' ∉ spelling) : spelling <:+: head.text := by
  have hsplit : tocEntry head =
      ("> ".toList ++ List.replicate (2 * (head.level - 2)) ' ' ++ "- [[".toList) ++
        '#' :: (head.text ++ '|' :: (head.text ++ ']' :: [']'])) := by
    simp [tocEntry]
  have hnot : ∀ part : List Char, 'M' ∉ part → ¬ spelling <:+: part :=
    fun part hpart hwithin => hpart (hwithin.subset hword)
  rw [hsplit] at h
  have hbehind := (infix_of_infix_append_cons h hhash).resolve_left
    (hnot _ (by simp [List.mem_replicate]))
  rcases infix_of_infix_append_cons hbehind hbar with hfirst | hsecond
  · exact hfirst
  · exact (infix_of_infix_append_cons hsecond hbracket).resolve_right (hnot _ (by decide))

variable {level : Nat} {text : List Char} {index : Nat}

theorem occursIn_of_occursIn_tocEntry {marker : Marker} (htight : marker.Tight)
    (hword : 'M' ∈ marker.word)
    (hhash : '#' ∉ marker.opening ++ marker.word ++ marker.closing)
    (hbar : '|' ∉ marker.opening ++ marker.word ++ marker.closing)
    (hbracket : ']' ∉ marker.opening ++ marker.word ++ marker.closing)
    (hline : headingOfLine? line = some (level, text))
    (h : marker.occursIn (tocEntry ⟨index, level, text⟩) = true) :
    marker.occursIn line = true := by
  obtain ⟨spelling, hspells, hwithin⟩ := (occursIn_iff htight).mp h
  have htext : spelling <:+: text := spelling_infix_text hwithin (hspells.mem (by simp [hword]))
    (hspells.not_mem (by decide) hhash) (hspells.not_mem (by decide) hbar)
    (hspells.not_mem (by decide) hbracket)
  exact (occursIn_iff htight).mpr
    ⟨spelling, hspells, htext.trans (headingText_infix_line hline)⟩

/-- A link mentions a start marker only if its heading does. -/
theorem isStartMarker_tocEntry (hline : headingOfLine? line = some (level, text))
    (h : isStartMarker (tocEntry ⟨index, level, text⟩) = true) : isStartMarker line = true := by
  rw [isStartMarker, Bool.or_eq_true] at h ⊢
  rcases h with h | h
  · exact Or.inl (occursIn_of_occursIn_tocEntry (tight_html startsVisible_startWord) (by decide)
      (by decide) (by decide) (by decide) hline h)
  · exact Or.inr (occursIn_of_occursIn_tocEntry (tight_percent startsVisible_startWord) (by decide)
      (by decide) (by decide) (by decide) hline h)

end Waymark
