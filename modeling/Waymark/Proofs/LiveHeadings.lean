import Waymark.Proofs.FooterEdits
import Waymark.Proofs.Revision

/-!
# Headings while footers are put in

The loop that puts new footers in visits the headings from the last to the first. It does not look
for the headings again when it has put a footer in: it moves the remembered lines of the headings
that stand below. All the same, whenever a heading is visited the remembered headings are those
that the lines then have, and so the section that is read off them ends where it ends in the lines
as they are.

Only the headings behind the one that was visited are moved. Those above it stand above the footer
too, because a section holds the heading that opens it.

## Main definitions

* `IsSectionEnd` — the last line of the section that a heading opens, told by the lines
* `FooterLoop.start`, `FooterLoop.IsLive` — what is remembered is true of the lines

## Main results

* `isSectionEnd_of_getElem?` — the end read off the headings of a buffer is the end of the section
* `headings_footSection` — the footer of one section moves the headings behind it
* `FooterLoop.exists_round?` — one round keeps what is remembered true
* `headings_stayLive` — so it is in every round and behind the last one
-/

namespace Waymark

/-- Line `last` is the last one of the section that the heading opens: the heading's own line and
the lines below it end there, none of those below ends the section, and the next line does, or
there is none. -/
def IsSectionEnd (lines : Buffer) (head : Heading) (last : Nat) : Prop :=
  ∃ front title part back, lines = front ++ title :: (part ++ back) ∧ front.length = head.line ∧
    headingOfLine? title = some (head.level, head.text) ∧ last = head.line + part.length ∧
      (∀ line ∈ part, endsSection head.level line = false) ∧
        ∀ line ∈ back.head?, endsSection head.level line = true

namespace FooterLoop

/-- The loop before its first round. -/
def start (lines : Buffer) : FooterLoop :=
  ⟨(headings lines).length, headings lines, lines⟩

/-- What is remembered is true of the lines, which are those of `kept` with the footers of the
headings that were visited. -/
structure IsLive (levels : List Nat) (rule : Line) (kept : Buffer) (loop : FooterLoop) : Prop where
  /-- The remembered headings are those of the lines, with their indices, levels and texts. -/
  heads : loop.heads = headings loop.lines
  /-- The section of every heading ends where the remembered headings say. -/
  ends : ∀ position head, loop.heads[position]? = some head →
    ∃ last, sectionEndAt? loop.heads position loop.lines.length = some last ∧
      IsSectionEnd loop.lines head last
  /-- The heading lines are those of `kept`, in their order. -/
  titles : loop.lines.filter isHeadingLine = kept.filter isHeadingLine
  /-- The headings that are still to be visited have not moved. -/
  unmoved : loop.heads.take loop.ahead = (headings kept).take loop.ahead
  /-- The sections of the others have their footers. -/
  footed : insertFooters levels rule ((headings kept).drop loop.ahead) kept =
    (loop.lines, loop.heads.drop loop.ahead)

end FooterLoop

variable {levels : List Nat} {rule title : Line} {lines kept front below : Buffer}
variable {head : Heading} {heads : List Heading} {position level : Nat} {text : List Char}
variable {loop : FooterLoop}

/-! ### The end of a section -/

/-- The headings of a buffer that is cut at one of them. -/
theorem headings_cut (htitle : headingOfLine? title = some (level, text)) (front below : Buffer) :
    headings (front ++ title :: below) = headingsFrom 0 front ++
      ⟨front.length, level, text⟩ :: headingsFrom (front.length + 1) below := by
  rw [headings, headingsFrom_append, headingsFrom_cons_of_heading htitle, Nat.zero_add]

theorem take_headings_cut (htitle : headingOfLine? title = some (level, text))
    (front below : Buffer) :
    (headings (front ++ title :: below)).take (headingsFrom 0 front).length =
      headingsFrom 0 front := by
  rw [headings_cut htitle, List.take_left]

theorem drop_headings_cut (htitle : headingOfLine? title = some (level, text))
    (front below : Buffer) :
    (headings (front ++ title :: below)).drop ((headingsFrom 0 front).length + 1) =
      headingsFrom (front.length + 1) below := by
  rw [headings_cut htitle, ← List.drop_drop, List.drop_left]
  rfl

/-- Read off the headings, the section of a heading ends with the lines that do not end it. -/
theorem sectionEnd_cut (htitle : headingOfLine? title = some (level, text))
    (front below : Buffer) :
    sectionEnd level
        ((headings (front ++ title :: below)).drop ((headingsFrom 0 front).length + 1))
        (front ++ title :: below).length =
      front.length + (sectionPart level below).length := by
  rw [drop_headings_cut htitle, length_append_cons]
  exact sectionEnd_headingsFrom level front.length below

/-- The end of a section that is read off the headings of a buffer is the end that the section has
in the buffer. -/
theorem isSectionEnd_of_getElem? (h : (headings lines)[position]? = some head) :
    ∃ last, sectionEndAt? (headings lines) position lines.length = some last ∧
      IsSectionEnd lines head last := by
  obtain ⟨front, title, below, rfl, hplace, htitle, rfl⟩ := exists_of_getElem?_headingsFrom h
  rw [Nat.zero_add] at hplace
  refine ⟨_, by rw [sectionEndAt?, h, Option.map_some, sectionEnd_cut htitle], front, title,
    sectionPart head.level below, afterSection head.level below, ?_, hplace.symm, htitle,
    by rw [hplace], ?_, ?_⟩
  · rw [sectionPart_append_afterSection]
  · exact fun line => endsSection_eq_false_of_mem_sectionPart
  · exact fun line => endsSection_of_head?_afterSection

/-- The section of a heading of a buffer ends in the buffer. -/
theorem sectionEnd_drop_lt (h : (headings lines)[position]? = some head) :
    sectionEnd head.level ((headings lines).drop (position + 1)) lines.length < lines.length := by
  have hinside : ∀ head ∈ headings lines, head.line < lines.length := fun head hmem => by
    simpa using line_lt_of_mem_headingsFrom hmem
  have hhere := hinside head (List.mem_of_getElem? h)
  exact sectionEnd_lt (Nat.zero_lt_of_lt hhere)
    (fun later hlater => hinside later (List.mem_of_mem_drop hlater)) head.level

/-! ### One section -/

/-- A footer goes in below the last line of a section. -/
theorem insertAt_below_section (front : Buffer) (title : Line) (part back : Buffer)
    (footer : List Line) :
    Buffer.insertAt (front ++ title :: (part ++ back)) (front.length + part.length + 1) footer =
      front ++ title :: (part ++ footer ++ back) := by
  have hplace : (front ++ title :: part).length = front.length + part.length + 1 := by
    rw [List.length_append, List.length_cons, Nat.add_assoc]
  have hparts : front ++ title :: (part ++ back) = front ++ title :: part ++ back := by simp
  rw [hparts, ← hplace, insertAt_length]
  simp

/-- A footer below a section moves the headings behind the one that opens it. -/
theorem headings_footed (hrule : isHeadingLine rule = false)
    (htitle : headingOfLine? title = some (head.level, head.text))
    (hplace : head.line = front.length) (part back : Buffer) (endsBlank : Bool) :
    headings (front ++ title :: (part ++ footerLines rule endsBlank ++ back)) =
      headingsFrom 0 front ++ head :: (headingsFrom (front.length + 1) (part ++ back)).map
        (·.shift (front.length + part.length + 1) (footerLines rule endsBlank).length) := by
  have hhead : (⟨front.length, head.level, head.text⟩ : Heading) = head := by rw [← hplace]
  have hbehind : front.length + 1 + part.length = front.length + part.length + 1 :=
    Nat.add_right_comm _ _ _
  rw [headings_cut htitle, hhead,
    headingsFrom_insert fun _ => isHeadingLine_eq_false_of_mem_footerLines hrule, hbehind]

theorem filter_footed (hrule : isHeadingLine rule = false) (part back : Buffer)
    (endsBlank : Bool) :
    (part ++ footerLines rule endsBlank ++ back).filter isHeadingLine =
      (part ++ back).filter isHeadingLine := by
  have hnone : (footerLines rule endsBlank).filter isHeadingLine = [] := by
    rw [List.filter_eq_nil_iff]
    intro line hline
    simp [isHeadingLine_eq_false_of_mem_footerLines hrule hline]
  rw [List.filter_append, List.filter_append, hnone, List.append_nil, ← List.filter_append]

/-- The footer of a section moves the headings behind the one that opens it, and no heading comes or
goes. -/
theorem headings_footSection (levels : List Nat) (hrule : isHeadingLine rule = false)
    (hhead : (headings lines)[position]? = some head) :
    headings (footSection levels rule head ((headings lines).drop (position + 1)) lines).1 =
        (headings lines).take position ++
          (footSection levels rule head ((headings lines).drop (position + 1)) lines).2 ∧
      (footSection levels rule head ((headings lines).drop (position + 1)) lines).1.filter
        isHeadingLine = lines.filter isHeadingLine := by
  cases hlevel : levels.contains head.level with
  | false =>
    rw [footSection_of_not_level hlevel]
    exact ⟨(take_append_cons_drop hhead).symm, rfl⟩
  | true =>
    obtain ⟨front, title, below, rfl, hplace, htitle, rfl⟩ :=
      exists_of_getElem?_headingsFrom hhead
    rw [Nat.zero_add] at hplace
    -- The buffer is cut above the heading, below its section, and the footer goes in there.
    have hlast := sectionEnd_cut htitle front below
    obtain ⟨part, back, rfl, hpart⟩ : ∃ part back, below = part ++ back ∧
        sectionPart head.level below = part :=
      ⟨_, _, (sectionPart_append_afterSection head.level below).symm, rfl⟩
    rw [hpart] at hlast
    have hin : front.length + part.length < (front ++ title :: (part ++ back)).length := by
      rw [List.length_append, List.length_cons, List.length_append]
      omega
    have hclosing := List.getElem?_eq_getElem hin
    generalize (front ++ title :: (part ++ back))[front.length + part.length] = closing at hclosing
    rw [footSection_of_level hlevel hlast hclosing, insertAt_below_section]
    refine ⟨?_, ?_⟩
    · rw [headings_footed hrule htitle hplace, take_headings_cut htitle, drop_headings_cut htitle]
    · rw [List.filter_append, List.filter_append, List.filter_cons, List.filter_cons,
        filter_footed hrule]

/-! ### The rounds -/

namespace FooterLoop

/-- Where the headings are those of the lines, the sections end where they say. -/
theorem ends_of_heads (hheads : heads = headings lines) (hhead : heads[position]? = some head) :
    ∃ last, sectionEndAt? heads position lines.length = some last ∧
      IsSectionEnd lines head last := by
  subst hheads
  exact isSectionEnd_of_getElem? hhead

theorem isLive_start (levels : List Nat) (rule : Line) (kept : Buffer) :
    (start kept).IsLive levels rule kept where
  heads := rfl
  ends := fun _ _ => ends_of_heads rfl
  titles := rfl
  unmoved := rfl
  footed := by
    rw [start, List.drop_length]
    rfl

/-- With the footer of the heading that is visited, what is remembered is true again. -/
theorem isLive_footSection (hrule : isHeadingLine rule = false)
    (hlive : IsLive levels rule kept ⟨position + 1, headings lines, lines⟩)
    (hhead : (headings lines)[position]? = some head)
    (hkept : (headings kept)[position]? = some head) :
    IsLive levels rule kept ⟨position,
      (headings lines).take position ++
        (footSection levels rule head ((headings lines).drop (position + 1)) lines).2,
      (footSection levels rule head ((headings lines).drop (position + 1)) lines).1⟩ := by
  have habove : ((headings lines).take position).length = position :=
    List.length_take_of_le (List.getElem?_eq_some_iff.mp hhead).1.le
  have hfooted : insertFooters levels rule ((headings kept).drop position) kept =
      footSection levels rule head ((headings lines).drop (position + 1)) lines := by
    obtain ⟨hlt, rfl⟩ := List.getElem?_eq_some_iff.mp hkept
    rw [List.drop_eq_getElem_cons hlt, insertFooters_cons, hlive.footed]
  -- What is put in lies below the heading, so the headings above it are as they were.
  have hunmoved := congrArg (List.take position) hlive.unmoved
  rw [List.take_take, List.take_take, Nat.min_eq_left (Nat.le_succ _)] at hunmoved
  obtain ⟨hmoved, htitles⟩ := headings_footSection levels hrule hhead
  exact {
    heads := hmoved.symm
    ends := fun _ _ => ends_of_heads hmoved.symm
    titles := htitles.trans hlive.titles
    unmoved := by rw [List.take_left' habove, hunmoved]
    footed := by rw [hfooted, List.drop_left' habove] }

/-- The last heading still to be visited is there, and its round keeps what is remembered true. -/
theorem exists_round? (hrule : isHeadingLine rule = false) (hlive : loop.IsLive levels rule kept)
    (hahead : loop.ahead = position + 1) (hlt : position < (headings kept).length) :
    ∃ next, loop.round? levels rule = some next ∧ next.IsLive levels rule kept ∧
      next.ahead = position := by
  obtain ⟨ahead, heads, lines⟩ := loop
  obtain rfl : heads = headings lines := hlive.heads
  obtain rfl : ahead = position + 1 := hahead
  obtain ⟨head, hkept⟩ : ∃ head, (headings kept)[position]? = some head :=
    ⟨_, List.getElem?_eq_getElem hlt⟩
  -- The heading that is visited has not moved.
  have hhead : (headings lines)[position]? = some head := by
    have hread := congrArg (·[position]?) hlive.unmoved
    simpa [List.getElem?_take, hkept] using hread
  exact ⟨_, round?_eq hhead (sectionEnd_drop_lt hhead),
    isLive_footSection hrule hlive hhead hkept, rfl⟩

/-- As many rounds as there are headings to visit go through, and keep what is remembered true. -/
theorem exists_rounds? (hrule : isHeadingLine rule = false) {count : Nat}
    (hlive : loop.IsLive levels rule kept) (hahead : loop.ahead ≤ (headings kept).length)
    (hcount : count ≤ loop.ahead) :
    ∃ next, loop.rounds? levels rule count = some next ∧ next.IsLive levels rule kept ∧
      next.ahead + count = loop.ahead := by
  induction count generalizing loop with
  | zero => exact ⟨loop, rfl, hlive, rfl⟩
  | succ count ih =>
    obtain ⟨position, hposition⟩ := Nat.exists_eq_add_one.mpr (Nat.zero_lt_of_lt hcount)
    obtain ⟨next, hnext, hlive, hahead'⟩ := exists_round? hrule hlive hposition (by omega)
    obtain ⟨final, hfinal, hlive, hcount⟩ := ih hlive (by omega) (by omega)
    exact ⟨final, by rw [rounds?, hnext]; exact hfinal, hlive, by omega⟩

end FooterLoop

/-- At the start of every round of the loop and behind the last one, the remembered headings are
those of the lines as they are, the section of every heading ends where they say, and the heading
lines are those from before the loop. The last round leaves the buffer with its footers renewed. -/
theorem headings_stayLive (levels : List Nat) (hr : List Char)
    (hkept : lines.without (footerSpans lines levels (ruleLine hr)) = kept) {count : Nat}
    (hcount : count ≤ (headings kept).length) :
    ∃ loop, (FooterLoop.start kept).rounds? levels (ruleLine hr) count = some loop ∧
      loop.ahead + count = (headings kept).length ∧ loop.IsLive levels (ruleLine hr) kept ∧
        (loop.ahead = 0 → loop.lines = ensureFooters lines levels hr ∧
          putFooters? levels (ruleLine hr) count (headings kept) kept = some loop.lines) := by
  obtain ⟨loop, hloop, hlive, hahead⟩ := FooterLoop.exists_rounds? (isHeadingLine_ruleLine hr)
    (FooterLoop.isLive_start levels (ruleLine hr) kept) (Nat.le_refl _) hcount
  refine ⟨loop, hloop, hahead, hlive, fun hdone => ⟨?_, ?_⟩⟩
  · have hfooted := hlive.footed
    rw [hdone, List.drop_zero, List.drop_zero] at hfooted
    rw [ensureFooters, hkept, hfooted]
  · obtain rfl : count = (headings kept).length := by
      rw [hdone, Nat.zero_add] at hahead
      exact hahead
    rw [FooterLoop.putFooters?_eq_rounds?]
    exact congrArg (Option.map (·.lines)) hloop

/-- A section within another one that ends on the same line. -/
def nestedLines : Buffer :=
  ["# T".toList, "## A".toList, "### B".toList, "b".toList, "## C".toList]

/-- When the footers of the last three sections are in, the last heading has moved twice. -/
theorem headings_stayLive_nestedLines :
    ∃ loop, (FooterLoop.start nestedLines).rounds? [2, 3] (ruleLine []) 3 = some loop ∧
      loop.heads.map (·.line) = [0, 1, 2, 12] ∧
        loop.IsLive [2, 3] (ruleLine []) nestedLines := by
  have hkept : nestedLines.without (footerSpans nestedLines [2, 3] (ruleLine [])) =
      nestedLines := by
    decide +kernel
  obtain ⟨loop, hloop, -, hlive, -⟩ := headings_stayLive [2, 3] [] hkept
    (by decide : 3 ≤ (headings nestedLines).length)
  have hlines : ((FooterLoop.start nestedLines).rounds? [2, 3] (ruleLine []) 3).map
      (·.heads.map (·.line)) = some [0, 1, 2, 12] := by
    decide +kernel
  rw [hloop] at hlines
  exact ⟨loop, hloop, Option.some.inj hlines, hlive⟩

end Waymark
