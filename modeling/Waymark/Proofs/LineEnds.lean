import Waymark.Buffer
import Waymark.Proofs.Pieces

/-!
# Cutting what was joined

Joining a buffer and cutting the text again gives the buffer back, up to two things.
A line that is not the last one loses a carriage return at its end, since the line feed
behind it makes the two a line end, and a line that itself holds line feeds comes back
as several.

## Main definitions

* `withoutReturn` — a line less a carriage return at its end
* `closedLines` — the lines of a text that a line feed closes
* `relined` — the lines of a joined buffer
* `textLines` — the lines of a joined buffer, carriage returns and all

## Main results

* `splitLines_joinLines` — cutting a joined buffer gives the relined buffer
* `relined_eq_self` — a buffer of proper lines comes back unchanged
* `splitOn_joinLines` — cutting a joined buffer at its line feeds gives its text lines
-/

namespace Waymark

/-- The line less a carriage return at its end. -/
def withoutReturn (line : Line) : Line :=
  if line.getLast? = some '\r' then line.dropLast else line

/-- The lines of a text that a line feed closes. -/
def closedLines (text : List Char) : Buffer :=
  (text.splitOn '\n').map withoutReturn

/-- The lines of the joined buffer: its own, cut where they hold line feeds, and less the
carriage returns before a line end. -/
def relined : Buffer → Buffer
  | [] => [[]]
  | [line] => splitLines line
  | line :: rest => closedLines line ++ relined rest

/-- The lines of the text of a buffer, those of them that hold line feeds being cut. -/
def textLines (lines : Buffer) : Buffer :=
  lines.flatMap (·.splitOn '\n')

variable {line : Line} {lines front rest : Buffer} {text : List Char}

theorem withoutReturn_of_getLast? (h : line.getLast? ≠ some '\r') : withoutReturn line = line :=
  if_neg h

theorem withoutReturn_isPrefix (line : Line) : withoutReturn line <+: line := by
  rw [withoutReturn]
  split
  · exact List.dropLast_prefix line
  · exact List.prefix_rfl

theorem withoutReturn_cons_cons (c d : Char) (rest : List Char) :
    withoutReturn (c :: d :: rest) = c :: withoutReturn (d :: rest) := by
  simp only [withoutReturn, List.getLast?_cons_cons, List.dropLast_cons_cons]
  split <;> rfl

/-! ### One line end -/

theorem unifyLineEnds_of_not_mem (h : '\n' ∉ text) : unifyLineEnds text = text := by
  induction text with
  | nil => rfl
  | cons c text ih =>
    simp only [List.mem_cons, not_or] at h
    have hnot : ¬(c = '\r' ∧ text.head? = some '\n') := by
      rintro ⟨-, hhead⟩
      exact h.2 (List.mem_of_mem_head? hhead)
    rw [unifyLineEnds, if_neg hnot, ih h.2]

/-- The first line end of a text takes a carriage return before it along. -/
theorem unifyLineEnds_append_newline (h : '\n' ∉ line) :
    unifyLineEnds (line ++ '\n' :: text) = withoutReturn line ++ '\n' :: unifyLineEnds text := by
  induction line with
  | nil => simp [unifyLineEnds, withoutReturn]
  | cons c line ih =>
    simp only [List.mem_cons, not_or] at h
    cases line with
    | nil =>
      by_cases hc : c = '\r'
      · simp [hc, unifyLineEnds, withoutReturn]
      · simp [hc, unifyLineEnds, withoutReturn]
    | cons d line =>
      have hd : d ≠ '\n' := fun hd => h.2 (by simp [hd])
      rw [withoutReturn_cons_cons, List.cons_append, unifyLineEnds,
        if_neg (by simp [hd]), ih h.2, List.cons_append]

theorem splitLines_of_not_mem (h : '\n' ∉ text) : splitLines text = [text] := by
  rw [splitLines, unifyLineEnds_of_not_mem h, List.splitOn_eq_singleton h]

theorem splitLines_append_newline (h : '\n' ∉ line) :
    splitLines (line ++ '\n' :: text) = withoutReturn line :: splitLines text := by
  have hwithout : '\n' ∉ withoutReturn line := fun hmem =>
    h ((withoutReturn_isPrefix line).subset hmem)
  rw [splitLines, unifyLineEnds_append_newline h,
    List.splitOn_append_cons_self_of_not_mem hwithout, splitLines]

/-! ### Joined buffers -/

@[simp] theorem joinLines_singleton (line : Line) : joinLines [line] = line :=
  List.intercalate_singleton

theorem joinLines_cons (line : Line) (h : rest ≠ []) :
    joinLines (line :: rest) = line ++ '\n' :: joinLines rest := by
  rw [joinLines, List.intercalate_cons_of_ne_nil h]
  simp [joinLines]

theorem joinLines_splitOn (text : List Char) : joinLines (text.splitOn '\n') = text :=
  List.intercalate_splitOn '\n'

theorem not_mem_of_mem_splitLines (h : line ∈ splitLines text) : '\n' ∉ line :=
  not_mem_of_mem_splitOn h

/-- A text followed by a line feed is cut into closed lines. -/
theorem splitLines_append (front text : List Char) :
    splitLines (front ++ '\n' :: text) = closedLines front ++ splitLines text := by
  have hlines : ∀ lines : Buffer, lines ≠ [] → (∀ line ∈ lines, '\n' ∉ line) →
      splitLines (joinLines lines ++ '\n' :: text) =
        lines.map withoutReturn ++ splitLines text := by
    intro lines hne hall
    induction lines with
    | nil => exact absurd rfl hne
    | cons line rest ih =>
      have hline := hall line List.mem_cons_self
      by_cases hrest : rest = []
      · subst hrest
        simp [splitLines_append_newline hline]
      · rw [joinLines_cons line hrest, List.append_assoc, List.cons_append,
          splitLines_append_newline hline,
          ih hrest fun l hl => hall l (List.mem_cons_of_mem _ hl)]
        rfl
  have := hlines (front.splitOn '\n') (List.splitOn_ne_nil _ _) fun _ => not_mem_of_mem_splitOn
  rwa [joinLines_splitOn] at this

/-- Cutting a joined buffer gives the relined buffer. -/
theorem splitLines_joinLines (lines : Buffer) : splitLines (joinLines lines) = relined lines := by
  induction lines with
  | nil => rfl
  | cons line rest ih =>
    cases rest with
    | nil => rw [joinLines_singleton]; rfl
    | cons next rest =>
      rw [joinLines_cons line (List.cons_ne_nil _ _), splitLines_append, ih]
      rfl

theorem relined_cons (line : Line) (h : rest ≠ []) :
    relined (line :: rest) = closedLines line ++ relined rest := by
  cases rest with
  | nil => exact absurd rfl h
  | cons next rest => rfl

theorem relined_append (lines : Buffer) (h : rest ≠ []) :
    relined (lines ++ rest) = lines.flatMap closedLines ++ relined rest := by
  induction lines with
  | nil => rfl
  | cons line lines ih =>
    rw [List.cons_append, relined_cons line (List.append_ne_nil_of_right_ne_nil _ h), ih,
      List.flatMap_cons, List.append_assoc]

theorem closedLines_of_not_mem (h : '\n' ∉ line) : closedLines line = [withoutReturn line] := by
  rw [closedLines, List.splitOn_eq_singleton h]
  rfl

theorem flatMap_closedLines (h : ∀ line ∈ lines, '\n' ∉ line) :
    lines.flatMap closedLines = lines.map withoutReturn := by
  rw [List.map_eq_flatMap]
  exact List.flatMap_congr fun line hline => closedLines_of_not_mem (h line hline)

/-- A buffer without line feeds comes back with its last line as it was, and its other lines
less the carriage returns at their ends. -/
theorem relined_concat (h : ∀ line ∈ lines, '\n' ∉ line) (hline : '\n' ∉ line) :
    relined (lines ++ [line]) = lines.map withoutReturn ++ [line] := by
  rw [relined_append lines (List.cons_ne_nil _ _), flatMap_closedLines h, relined,
    splitLines_of_not_mem hline]

theorem withoutReturn_eq_iff {found : Line} (h : line.getLast? ≠ some '\r') :
    withoutReturn found = line ↔ found = line ∨ found = line ++ ['\r'] := by
  by_cases hfound : found.getLast? = some '\r'
  · rw [withoutReturn, if_pos hfound]
    obtain ⟨init, rfl⟩ := List.getLast?_eq_some_iff.mp hfound
    rw [List.dropLast_concat, List.append_cancel_right_eq, or_iff_right]
    rintro rfl
    exact h hfound
  · rw [withoutReturn_of_getLast? hfound, or_iff_left]
    rintro rfl
    exact hfound (by simp)

/-- A line without a carriage return at its end comes back if it is there, or if it is there with
a carriage return and a line below. -/
theorem mem_relined_iff (hlines : ∀ l ∈ lines, '\n' ∉ l) (hne : line ≠ [])
    (h : line.getLast? ≠ some '\r') :
    line ∈ relined lines ↔ line ∈ lines ∨ line ++ ['\r'] ∈ lines.dropLast := by
  rcases List.eq_nil_or_concat' lines with rfl | ⟨init, last, rfl⟩
  · simp [relined, hne]
  · rw [relined_concat (fun l hl => hlines l (by simp [hl])) (hlines last (by simp)),
      List.dropLast_concat, List.mem_append, List.mem_map, List.mem_append]
    have hsource : (∃ l ∈ init, withoutReturn l = line) ↔ line ∈ init ∨ line ++ ['\r'] ∈ init := by
      constructor
      · rintro ⟨l, hl, hread⟩
        rcases (withoutReturn_eq_iff h).mp hread with rfl | rfl
        · exact Or.inl hl
        · exact Or.inr hl
      · rintro (hl | hl)
        · exact ⟨line, hl, withoutReturn_of_getLast? h⟩
        · exact ⟨_, hl, (withoutReturn_eq_iff h).mpr (Or.inr rfl)⟩
    rw [hsource]
    tauto

/-- Lines without carriage returns at their ends are read as they were written. -/
theorem infix_relined {part : Buffer} (hlines : ∀ l ∈ lines, '\n' ∉ l)
    (hreturn : ∀ l ∈ part, l.getLast? ≠ some '\r') (h : part <:+: lines) :
    part <:+: relined lines := by
  have hread : ∀ {part : Buffer}, (∀ l ∈ part, l.getLast? ≠ some '\r') →
      part.map withoutReturn = part := fun hreturn =>
    (List.map_congr_left fun l hl =>
      withoutReturn_of_getLast? (hreturn l hl)).trans (List.map_id' _)
  rcases List.eq_nil_or_concat' lines with rfl | ⟨init, last, rfl⟩
  · rw [List.infix_nil.mp h]
    exact List.nil_infix
  · rw [relined_concat (fun l hl => hlines l (by simp [hl])) (hlines last (by simp))]
    rcases List.infix_concat_iff.mp h with h | h
    · rcases List.suffix_concat_iff.mp h with rfl | ⟨part, rfl, hsuffix⟩
      · exact List.nil_infix
      · have hpart := hsuffix.map withoutReturn
        rw [hread fun l hl => hreturn l (by simp [hl])] at hpart
        exact (List.suffix_concat_iff.mpr (Or.inr ⟨_, rfl, hpart⟩)).isInfix
    · rw [← hread hreturn]
      exact (h.map withoutReturn).trans (List.prefix_append _ _).isInfix

/-! ### Proper lines -/

/-- The buffer is one that a text is cut into: no line holds a line feed, and no line but the
last ends in a carriage return. -/
def ProperLines (lines : Buffer) : Prop :=
  (∀ line ∈ lines, '\n' ∉ line) ∧ ∀ line ∈ lines.dropLast, line.getLast? ≠ some '\r'

/-- Proper lines come back as they were joined. -/
theorem relined_eq_self (hne : lines ≠ []) (h : ProperLines lines) : relined lines = lines := by
  obtain ⟨init, last, rfl⟩ := (List.eq_nil_or_concat' lines).resolve_left hne
  obtain ⟨hfeed, hreturn⟩ := h
  rw [List.dropLast_concat] at hreturn
  rw [relined_concat (fun line hline => hfeed line (by simp [hline])) (hfeed last (by simp)),
    List.map_congr_left fun line hline => withoutReturn_of_getLast? (hreturn line hline),
    List.map_id']

theorem splitLines_joinLines_eq_self (hne : lines ≠ []) (h : ProperLines lines) :
    splitLines (joinLines lines) = lines := by
  rw [splitLines_joinLines, relined_eq_self hne h]

/-! ### The lines of a text -/

theorem joinLines_append (hfront : front ≠ []) (hrest : rest ≠ []) :
    joinLines (front ++ rest) = joinLines front ++ '\n' :: joinLines rest :=
  intercalate_append hfront hrest

theorem textLines_ne_nil (hne : lines ≠ []) : textLines lines ≠ [] := by
  obtain ⟨line, rest, rfl⟩ := List.exists_cons_of_ne_nil hne
  exact List.append_ne_nil_of_left_ne_nil (List.splitOn_ne_nil _ _) _

theorem joinLines_textLines (lines : Buffer) : joinLines (textLines lines) = joinLines lines := by
  induction lines with
  | nil => rfl
  | cons line rest ih =>
    by_cases hnil : rest = []
    · rw [hnil, joinLines_singleton, textLines, List.flatMap_singleton, joinLines_splitOn]
    · have hparts : textLines (line :: rest) = line.splitOn '\n' ++ textLines rest := rfl
      rw [hparts, joinLines_append (List.splitOn_ne_nil _ _) (textLines_ne_nil hnil),
        joinLines_splitOn, ih, joinLines_cons line hnil]

theorem newline_not_mem_of_mem_textLines (h : line ∈ textLines lines) : '\n' ∉ line := by
  obtain ⟨source, -, hline⟩ := List.mem_flatMap.mp h
  exact not_mem_of_mem_splitOn hline

theorem splitOn_joinLines (hne : lines ≠ []) :
    (joinLines lines).splitOn '\n' = textLines lines := by
  rw [← joinLines_textLines, joinLines]
  exact List.splitOn_intercalate '\n' (fun _ => newline_not_mem_of_mem_textLines)
    (textLines_ne_nil hne)

theorem textLines_append (front rest : Buffer) :
    textLines (front ++ rest) = textLines front ++ textLines rest :=
  List.flatMap_append

theorem textLines_of_newline (h : ∀ line ∈ lines, '\n' ∉ line) : textLines lines = lines := by
  induction lines with
  | nil => rfl
  | cons line lines ih =>
    rw [textLines, List.flatMap_cons, List.splitOn_eq_singleton (h line List.mem_cons_self)]
    exact congrArg (line :: ·) (ih fun l hl => h l (List.mem_cons_of_mem _ hl))

end Waymark
