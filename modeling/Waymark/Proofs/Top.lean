import Waymark.Proofs.Recognisers
import Waymark.Proofs.Spans

/-!
# From the frontmatter to the anchor

The first three stages leave a buffer of one shape: what stands above the title, the title,
an empty line, the anchor, and what stands below. The lines of the note are kept in order;
the anchors among them go, and one leading empty line below the title is not counted twice.

## Main definitions

* `withoutAnchors` — the lines that are no anchors
* `belowGap` — the lines below a title, less the empty line that belongs to it
* `Fenced` — how a note is cut below its frontmatter, found, made or missing
* `Entitled` — how a note is cut at its title, found or made
* `titledLines` — the buffer with its title

## Main results

* `findFrontmatter_eq_some_iff` — what a frontmatter block is
* `fenced_ensureFrontmatter` — the stage of the frontmatter cuts a note below its frontmatter
* `entitled_ensureTitle` — the stage of the title cuts a note at its title
* `arrangeTop_eq` — the buffer that the three stages leave
-/

namespace Waymark

/-- The lines that are no anchors. -/
def withoutAnchors (lines : Buffer) : Buffer :=
  lines.filter (· != topAnchor)

/-- The lines less one leading empty line. -/
def belowGap : Buffer → Buffer
  | [] :: rest => rest
  | lines => lines

variable {lines front back above below : Buffer} {line title : Line} {span : Span}

/-! ### Frontmatter blocks -/

theorem findIdx?_eq_some_iff_append {test : Line → Bool} {index : Nat} :
    lines.findIdx? test = some index ↔ ∃ front line back, lines = front ++ line :: back ∧
      (∀ l ∈ front, test l = false) ∧ test line = true ∧ index = front.length := by
  induction lines generalizing index with
  | nil => simp
  | cons first lines ih =>
    rw [List.findIdx?_cons, exists_cut_cons_iff]
    simp only [List.forall_mem_cons]
    cases hfirst : test first with
    | true =>
      rw [if_pos rfl, Option.some.injEq]
      constructor
      · rintro rfl
        exact Or.inl ⟨by simp, rfl, rfl⟩
      · rintro (⟨-, -, rfl⟩ | ⟨_, _, _, -, ⟨habsurd, -⟩, -⟩)
        · rfl
        · cases habsurd
    | false =>
      simp only [Bool.false_eq_true, if_false, Option.map_eq_some_iff, ih]
      constructor
      · rintro ⟨i, ⟨front, line, back, hlines, hfront, hline, rfl⟩, rfl⟩
        exact Or.inr ⟨front, line, back, hlines, ⟨trivial, hfront⟩, hline, rfl⟩
      · rintro (⟨-, habsurd, -⟩ | ⟨front, line, back, hlines, ⟨-, hfront⟩, hline, rfl⟩)
        · cases habsurd
        · exact ⟨front.length, ⟨front, line, back, hlines, hfront, hline, rfl⟩, rfl⟩

theorem dropWhile_isBlank_append {blanks : Buffer} (hblanks : ∀ line ∈ blanks, isBlank line = true)
    (hline : isBlank line = false) : (blanks ++ line :: back).dropWhile isBlank = line :: back := by
  rw [List.dropWhile_append_of_pos hblanks, List.dropWhile_cons_of_neg (by simp [hline])]

theorem takeWhile_isBlank_append {blanks : Buffer} (hblanks : ∀ line ∈ blanks, isBlank line = true)
    (hline : isBlank line = false) : (blanks ++ line :: back).takeWhile isBlank = blanks := by
  rw [List.takeWhile_append_of_pos hblanks, List.takeWhile_cons_of_neg (by simp [hline]),
    List.append_nil]

/-- The lines through the end of a frontmatter block: blank lines, a fence, lines that are no
fences, and a fence. -/
structure IsFrontmatter (blanks : Buffer) (opening : Line) (middle : Buffer) (closing : Line) :
    Prop where
  /-- Only blank lines stand above the block. -/
  blank : ∀ line ∈ blanks, isBlank line = true
  /-- The block opens with a fence. -/
  opens : isFence opening = true
  /-- No other line of the block is a fence. -/
  inside : ∀ line ∈ middle, isFence line = false
  /-- The block closes with a fence. -/
  closes : isFence closing = true

/-- A frontmatter block is found where there is one. -/
theorem findFrontmatter_append {blanks middle : Buffer} {opening closing : Line}
    (h : IsFrontmatter blanks opening middle closing) (back : Buffer) :
    findFrontmatter (blanks ++ opening :: (middle ++ closing :: back)) =
      some ⟨blanks.length, blanks.length + 1 + middle.length⟩ := by
  have hblank := isBlank_eq_false_of_isFence h.opens
  have hindex : (middle ++ closing :: back).findIdx? isFence = some middle.length :=
    findIdx?_eq_some_iff_append.mpr ⟨middle, closing, back, rfl, h.inside, h.closes, rfl⟩
  simp [findFrontmatter, dropWhile_isBlank_append h.blank hblank,
    takeWhile_isBlank_append h.blank hblank, h.opens, hindex]

theorem findFrontmatter_eq_some_iff : findFrontmatter lines = some span ↔
    ∃ blanks opening middle closing back, IsFrontmatter blanks opening middle closing ∧
      lines = blanks ++ opening :: (middle ++ closing :: back) ∧
        span = ⟨blanks.length, blanks.length + 1 + middle.length⟩ := by
  constructor
  · intro h
    rw [findFrontmatter] at h
    split at h
    · cases h
    · next opening rest hdrop =>
      split at h
      · next hopens =>
        obtain ⟨offset, hoffset, rfl⟩ := Option.map_eq_some_iff.mp h
        obtain ⟨middle, closing, back, rfl, hinside, hcloses, rfl⟩ :=
          findIdx?_eq_some_iff_append.mp hoffset
        refine ⟨lines.takeWhile isBlank, opening, middle, closing, back,
          ⟨List.all_eq_true.mp List.all_takeWhile, hopens, hinside, hcloses⟩, ?_, rfl⟩
        rw [← hdrop, List.takeWhile_append_dropWhile]
      · cases h
  · rintro ⟨blanks, opening, middle, closing, back, hblock, rfl, rfl⟩
    exact findFrontmatter_append hblock back

/-- The lines are those through the closing fence of a frontmatter block. -/
def EndsFrontmatter (front : Buffer) : Prop :=
  ∃ blanks opening middle closing, IsFrontmatter blanks opening middle closing ∧
    front = blanks ++ opening :: (middle ++ [closing])

theorem exists_of_findFrontmatter (h : findFrontmatter lines = some span) :
    ∃ front back, EndsFrontmatter front ∧ lines = front ++ back ∧
      front.length = span.last + 1 := by
  obtain ⟨blanks, opening, middle, closing, back, hblock, rfl, rfl⟩ :=
    findFrontmatter_eq_some_iff.mp h
  refine ⟨blanks ++ opening :: (middle ++ [closing]), back,
    ⟨blanks, opening, middle, closing, hblock, rfl⟩, by simp, ?_⟩
  simp only [List.length_append, List.length_cons, List.length_nil]
  omega

theorem EndsFrontmatter.findFrontmatter_append (h : EndsFrontmatter front) (back : Buffer) :
    ∃ span, findFrontmatter (front ++ back) = some span ∧ span.last + 1 = front.length := by
  obtain ⟨blanks, opening, middle, closing, hblock, rfl⟩ := h
  refine ⟨⟨blanks.length, blanks.length + 1 + middle.length⟩, ?_, ?_⟩
  · rw [← Waymark.findFrontmatter_append hblock back]
    simp
  · simp only [List.length_append, List.length_cons, List.length_nil]
    omega

theorem EndsFrontmatter.length_pos (h : EndsFrontmatter front) : 0 < front.length := by
  obtain ⟨blanks, opening, middle, closing, -, rfl⟩ := h
  rw [List.length_append, List.length_cons]
  omega

/-- A block is found only where the first line that is not blank is a fence. -/
theorem findFrontmatter_eq_none
    (h : ∀ line ∈ (lines.dropWhile isBlank).head?, isFence line = false) :
    findFrontmatter lines = none := by
  rw [findFrontmatter]
  split
  · rfl
  · next opening rest hdrop =>
    rw [if_neg]
    simp [h opening (by simp [hdrop])]

/-! ### The stage of the frontmatter -/

/-- The lines of the block that is made, if there is none and it is asked for. -/
def newBlock (lines : Buffer) (create : Bool) : List Line :=
  if findFrontmatter lines = none ∧ create = true then emptyFrontmatter else []

/-- How a note is cut below its frontmatter, and the index of the closing fence. -/
inductive Fenced (lines : Buffer) : Bool → Buffer → Buffer → Option Nat → Prop
  /-- The block that was found. -/
  | found {create : Bool} {front back : Buffer} (hlines : lines = front ++ back)
    (hends : EndsFrontmatter front) : Fenced lines create front back (some (front.length - 1))
  /-- The block that was made, with an empty line below it. -/
  | made (hnone : findFrontmatter lines = none) :
    Fenced lines true [fenceLine, fenceLine] ([] :: lines) (some 1)
  /-- There is no block, and none was made. -/
  | absent (hnone : findFrontmatter lines = none) : Fenced lines false [] lines none

variable {create : Bool} {fence : Option Nat}

theorem ensureFrontmatter_append (h : EndsFrontmatter front) (back : Buffer) (create : Bool) :
    ensureFrontmatter (front ++ back) create = (front ++ back, some (front.length - 1)) := by
  obtain ⟨span, hspan, hlast⟩ := h.findFrontmatter_append back
  rw [ensureFrontmatter, hspan, ← hlast, Nat.add_sub_cancel]

theorem ensureFrontmatter_of_none (h : findFrontmatter lines = none) :
    ensureFrontmatter lines false = (lines, none) := by
  rw [ensureFrontmatter, h]
  rfl

/-- The stage of the frontmatter cuts a note below its frontmatter. -/
theorem fenced_ensureFrontmatter (lines : Buffer) (create : Bool) :
    ∃ front back fence, Fenced lines create front back fence ∧
      ensureFrontmatter lines create = (front ++ back, fence) := by
  cases hfind : findFrontmatter lines with
  | some span =>
    obtain ⟨front, back, hends, rfl, -⟩ := exists_of_findFrontmatter hfind
    exact ⟨front, back, _, .found rfl hends, ensureFrontmatter_append hends back create⟩
  | none =>
    cases create with
    | true =>
      refine ⟨_, _, _, .made hfind, ?_⟩
      rw [ensureFrontmatter, hfind]
      rfl
    | false => exact ⟨_, _, _, .absent hfind, ensureFrontmatter_of_none hfind⟩

/-- The search for the title starts where the note is cut. -/
theorem Fenced.start_eq (h : Fenced lines create front back fence) :
    fence.elim 0 (· + 1) = front.length := by
  cases h with
  | found _ hends => exact Nat.sub_add_cancel hends.length_pos
  | made => rfl
  | absent => rfl

theorem newBlock_append (h : EndsFrontmatter front) (back : Buffer) (create : Bool) :
    newBlock (front ++ back) create = [] := by
  obtain ⟨span, hspan, -⟩ := h.findFrontmatter_append back
  rw [newBlock, hspan]
  exact if_neg fun hnone => Option.some_ne_none span hnone.1

theorem newBlock_of_none (h : findFrontmatter lines = none) :
    newBlock lines create = if create then emptyFrontmatter else [] := by
  simp only [newBlock, h, true_and]

theorem Fenced.append_eq (h : Fenced lines create front back fence) :
    front ++ back = newBlock lines create ++ lines := by
  cases h with
  | found hlines hends => rw [hlines, newBlock_append hends, List.nil_append]
  | made hnone => rw [newBlock_of_none hnone]; rfl
  | absent hnone => rw [newBlock_of_none hnone]; rfl

theorem eq_of_mem_newBlock (h : line ∈ newBlock lines create) : line = [] ∨ line = fenceLine := by
  rw [newBlock] at h
  split at h
  · simp only [emptyFrontmatter, List.mem_cons, List.not_mem_nil] at h
    tauto
  · cases h

/-! ### Buffers cut at an index -/

theorem ensureEmptyAt_length (front back : Buffer) :
    ensureEmptyAt (front ++ back) front.length = front ++ ensureEmptyAt back 0 := by
  have hfilled : isFilledAt (front ++ back) front.length = isFilledAt back 0 := by
    rw [isFilledAt, isFilledAt, List.getElem?_append_right (Nat.le_refl _), Nat.sub_self]
  rw [ensureEmptyAt, ensureEmptyAt, hfilled, insertAt_length]
  split
  · rw [Buffer.insertAt]
    simp
  · rfl

theorem ensureEmptyAt_zero (lines : Buffer) :
    ensureEmptyAt lines 0 = if lines = [] then [] else [] :: belowGap lines := by
  match lines with
  | [] => rfl
  | [] :: rest => rfl
  | (c :: line) :: rest => simp [ensureEmptyAt, isFilledAt, Buffer.insertAt, belowGap]

theorem ensureEmptyAt_zero_eq_append (lines : Buffer) :
    ensureEmptyAt lines 0 = (if isFilledAt lines 0 then [[]] else []) ++ lines := by
  rw [ensureEmptyAt]
  split <;> simp [Buffer.insertAt]

theorem head?_ensureEmptyAt (lines : Buffer) :
    ∀ line ∈ (ensureEmptyAt lines 0).head?, line = [] := by
  rw [ensureEmptyAt_zero]
  split <;> simp

/-! ### The title -/

theorem findTitleFrom_eq_some_iff {start index : Nat} {text : List Char} :
    findTitleFrom start lines = some (index, text) ↔
      ∃ above line below, lines = above ++ line :: below ∧ index = start + above.length ∧
        (∀ l ∈ above, titleOfLine? l = none) ∧ titleOfLine? line = some text := by
  induction lines generalizing start with
  | nil => simp [findTitleFrom]
  | cons first lines ih =>
    rw [findTitleFrom, exists_cut_cons_iff]
    simp only [List.forall_mem_cons, add_length_cons]
    cases hfirst : titleOfLine? first with
    | some found => simp [eq_comm]
    | none => simp [ih]

/-- The title that is found, cut out of the buffer: what stands above it and what below. -/
theorem findTitle_of_drop {start : Nat} {text : List Char}
    (hdrop : lines.drop start = above ++ title :: below)
    (habove : ∀ line ∈ above, titleOfLine? line = none) (htitle : titleOfLine? title = some text) :
    findTitle lines start = some (start + above.length, text) :=
  findTitleFrom_eq_some_iff.mpr ⟨above, title, below, hdrop, rfl, habove, htitle⟩

theorem findTitleFrom_eq_none_iff {start : Nat} :
    findTitleFrom start lines = none ↔ ∀ line ∈ lines, titleOfLine? line = none := by
  induction lines generalizing start with
  | nil => simp [findTitleFrom]
  | cons first lines ih =>
    rw [findTitleFrom, List.forall_mem_cons]
    cases hfirst : titleOfLine? first with
    | some found => simp
    | none => simp [ih]

/-- How a note is cut at its title. Either a title was found below the first `start` lines and is
the first one there, or there was none and one was made from the note's name. -/
inductive Entitled (lines : Buffer) (start : Nat) (name : List Char) (pretty : Bool) :
    Buffer → Line → Buffer → Prop
  /-- The title that was found. -/
  | found {above below : Buffer} {title : Line} (hlines : lines = above ++ title :: below)
    (hstart : start ≤ above.length) (hfirst : ∀ line ∈ above.drop start, titleOfLine? line = none)
    (htitle : (titleOfLine? title).isSome) : Entitled lines start name pretty above title below
  /-- The title that was made, between empty lines. -/
  | made (hnone : ∀ line ∈ lines.drop start, titleOfLine? line = none) :
    Entitled lines start name pretty (lines.take start ++ [[]])
      (titleLine (titleOfName name pretty)) ([] :: belowGap (lines.drop start))

/-- The stage of the title cuts a note at its title. -/
theorem entitled_ensureTitle (lines : Buffer) (fence : Option Nat) (name : List Char)
    (pretty : Bool) (hstart : fence.elim 0 (· + 1) ≤ lines.length) :
    ∃ above title below text, Entitled lines (fence.elim 0 (· + 1)) name pretty above title below ∧
      ensureTitle lines fence name pretty = (above ++ title :: below, above.length, text) := by
  generalize hs : fence.elim 0 (· + 1) = start at hstart ⊢
  rw [ensureTitle, hs, findTitle]
  cases hfind : findTitleFrom start (lines.drop start) with
  | some found =>
    obtain ⟨index, text⟩ := found
    obtain ⟨above, title, below, hdrop, rfl, habove, htitle⟩ := findTitleFrom_eq_some_iff.mp hfind
    have hlines : lines = (lines.take start ++ above) ++ title :: below := by
      rw [List.append_assoc, ← hdrop, List.take_append_drop]
    have htake : (lines.take start).length = start := List.length_take_of_le hstart
    have hlength : (lines.take start ++ above).length = start + above.length := by
      rw [List.length_append, htake]
    refine ⟨lines.take start ++ above, title, below, text,
      .found hlines (by omega) ?_ (by simp [htitle]), ?_⟩
    · rwa [List.drop_left' htake]
    · rw [← hlines, hlength]
  | none =>
    have hnone := findTitleFrom_eq_none_iff.mp hfind
    refine ⟨_, _, _, titleOfName name pretty, .made hnone, ?_⟩
    have hlines := List.take_append_drop start lines
    have htake : (lines.take start).length = start := List.length_take_of_le hstart
    generalize lines.take start = front at hlines htake
    generalize lines.drop start = back at hlines
    subst hlines htake
    -- The new title stands below an empty line and brings one of its own, so that a gap which is
    -- there already is not counted twice.
    have hgap : (ensureEmptyAt (front ++ back) front.length).insertAt (front.length + 1)
        [titleLine (titleOfName name pretty), []] =
          front ++ [[]] ++ titleLine (titleOfName name pretty) :: [] :: belowGap back := by
      rw [ensureEmptyAt_length, ensureEmptyAt_zero]
      split
      · next h =>
        have htake : front.take (front.length + 1) = front := List.take_of_length_le (by omega)
        have hdrop : front.drop (front.length + 1) = [] := List.drop_of_length_le (by omega)
        simp [h, Buffer.insertAt, belowGap, htake, hdrop]
      · have := insertAt_length (front ++ [[]]) (belowGap back)
          [titleLine (titleOfName name pretty), []]
        simpa using this
    simp [hgap]

/-! ### The anchor -/

@[simp] theorem withoutAnchors_append (front back : Buffer) :
    withoutAnchors (front ++ back) = withoutAnchors front ++ withoutAnchors back :=
  List.filter_append ..

theorem withoutAnchors_cons_of_ne (h : line ≠ topAnchor) :
    withoutAnchors (line :: lines) = line :: withoutAnchors lines :=
  List.filter_cons_of_pos (by simpa using h)

theorem withoutAnchors_eq_self (h : topAnchor ∉ lines) : withoutAnchors lines = lines := by
  refine List.filter_eq_self.mpr fun line hline => ?_
  rw [bne_iff_ne]
  rintro rfl
  exact h hline

theorem topAnchor_not_mem_withoutAnchors (lines : Buffer) : topAnchor ∉ withoutAnchors lines := by
  intro h
  simpa using (List.mem_filter.mp h).2

theorem topAnchor_not_mem_ensureEmptyAt (lines : Buffer) :
    topAnchor ∉ ensureEmptyAt (withoutAnchors lines) 0 := by
  rw [ensureEmptyAt_zero_eq_append, List.mem_append, not_or]
  refine ⟨?_, topAnchor_not_mem_withoutAnchors lines⟩
  split <;> decide

theorem length_withoutAnchors (lines : Buffer) :
    (withoutAnchors lines).length = lines.length - lines.count topAnchor := by
  have hcount := List.length_eq_countP_add_countP (· == topAnchor) (l := lines)
  have hnot : lines.countP (· != topAnchor) = lines.countP fun line => ¬(line == topAnchor) :=
    List.countP_congr fun line _ => by simp
  rw [withoutAnchors, ← List.countP_eq_length_filter, List.count_eq_countP]
  omega

/-- A line that stands neither above nor below is found at its place alone. -/
theorem getElem?_append_cons_eq_iff {i : Nat} (hfront : line ∉ front) (hback : line ∉ back) :
    (front ++ line :: back)[i]? = some line ↔ i = front.length := by
  constructor
  · intro h
    rcases Nat.lt_or_ge i front.length with hi | hi
    · rw [List.getElem?_append_left hi] at h
      exact absurd (List.mem_of_getElem? h) hfront
    · rw [List.getElem?_append_right hi, List.getElem?_cons] at h
      split at h
      · omega
      · exact absurd (List.mem_of_getElem? h) hback
  · rintro rfl
    simp

/-- The anchor is put in unless it stands at its place; anchors further down go. -/
theorem ensureAnchorAt_length (front rest : Buffer) :
    ensureAnchorAt (front ++ (rest.take 1 ++ withoutAnchors (rest.drop 1))) front.length =
      front ++ topAnchor :: withoutAnchors rest := by
  cases rest with
  | nil =>
    have := insertAt_length front [] [topAnchor]
    simpa [ensureAnchorAt, withoutAnchors] using this
  | cons first rest =>
    have hfirst : (front ++ ([first] ++ withoutAnchors rest))[front.length]? = some first := by
      rw [List.getElem?_append_right (Nat.le_refl _), Nat.sub_self]
      rfl
    by_cases htop : first = topAnchor
    · rw [List.take_succ_cons, List.take_zero, List.drop_succ_cons, List.drop_zero, ensureAnchorAt,
        hfirst, if_pos (by rw [htop]), htop]
      simp [withoutAnchors]
    · rw [List.take_succ_cons, List.take_zero, List.drop_succ_cons, List.drop_zero, ensureAnchorAt,
        hfirst, if_neg (by simpa using htop), insertAt_length, withoutAnchors_cons_of_ne htop]
      simp

/-- Where the buffer ends above its place, the anchor is put in behind empty lines. -/
theorem ensureAnchorAt_end (lines : Buffer) (gap : Nat) :
    ensureAnchorAt lines (lines.length + gap) = lines ++ List.replicate gap [] ++ [topAnchor] := by
  have hend : lines.length ≤ lines.length + gap := Nat.le_add_right _ _
  rw [ensureAnchorAt, List.getElem?_eq_none hend, if_neg (by simp), Buffer.insertAt,
    List.take_of_length_le hend, List.drop_of_length_le hend, Nat.add_sub_cancel_left,
    List.append_nil]

/-- The stage of the anchor on any buffer: the anchors go from above and below the line at `index`,
and one is put in between, behind padding if the buffer ends above. -/
theorem ensureTopAnchor_eq_parts (lines : Buffer) (index : Nat) :
    ensureTopAnchor lines index =
      (withoutAnchors (lines.take index) ++ List.replicate (index - lines.length) [] ++
        topAnchor :: ensureEmptyAt (withoutAnchors (lines.drop index)) 0,
        index - anchorsAbove lines index) := by
  have hkept : (withoutAnchors (lines.take index)).length =
      (lines.take index).length - anchorsAbove lines index := length_withoutAnchors _
  have hcount : anchorsAbove lines index ≤ (lines.take index).length := List.count_le_length
  have hparts : withoutStrayAnchors lines index = withoutAnchors (lines.take index) ++
      ((lines.drop index).take 1 ++ withoutAnchors ((lines.drop index).drop 1)) := by
    rw [withoutStrayAnchors, List.append_assoc, List.drop_drop]
    rfl
  generalize hfront : withoutAnchors (lines.take index) ++
    List.replicate (index - lines.length) [] = front
  have hplace : front.length = index - anchorsAbove lines index := by
    rw [← hfront, List.length_append, List.length_replicate, hkept]
    rw [List.length_take] at hcount ⊢
    omega
  have hput : ensureAnchorAt (withoutStrayAnchors lines index) front.length =
      front ++ topAnchor :: withoutAnchors (lines.drop index) := by
    rw [hparts]
    -- Behind the end of the buffer, the empty lines up to the place are put in with the anchor.
    rcases Nat.le_total index lines.length with hin | hout
    · rw [Nat.sub_eq_zero_of_le hin, List.replicate_zero, List.append_nil] at hfront
      rw [hfront]
      exact ensureAnchorAt_length front (lines.drop index)
    · have hnone : withoutAnchors ([] : Buffer) = [] := rfl
      have hlength : front.length = (withoutAnchors (lines.take index)).length +
          (index - lines.length) := by
        rw [← hfront, List.length_append, List.length_replicate]
      rw [List.drop_of_length_le hout, List.drop_nil, List.take_nil, hnone, List.append_nil,
        List.append_nil, hlength, ensureAnchorAt_end, hfront]
  have hempty := ensureEmptyAt_length (front ++ [topAnchor]) (withoutAnchors (lines.drop index))
  rw [List.length_append, List.length_singleton, List.append_assoc, List.append_assoc,
    List.singleton_append, List.singleton_append] at hempty
  rw [ensureTopAnchor, ← hplace, hput, hempty]

/-- The stages of the empty line below the title and of the anchor. -/
theorem ensureTopAnchor_eq (above : Buffer) (title : Line) (below : Buffer)
    (htitle : title ≠ topAnchor) :
    ensureTopAnchor (ensureEmptyAfter (above ++ title :: below) above.length) (above.length + 2) =
      (withoutAnchors above ++ title :: [] :: topAnchor ::
        ensureEmptyAt (withoutAnchors (belowGap below)) 0, (withoutAnchors above).length + 2) := by
  have hgap : ensureEmptyAfter (above ++ title :: below) above.length =
      above ++ title :: ensureEmptyAt below 0 := by
    have := ensureEmptyAt_length (above ++ [title]) below
    simpa [ensureEmptyAfter] using this
  have hkept : (withoutAnchors above).length = above.length - above.count topAnchor :=
    length_withoutAnchors above
  have hcount : above.count topAnchor ≤ above.length := List.count_le_length
  have hplace : above.length + 2 - above.count topAnchor = (withoutAnchors above).length + 2 := by
    omega
  have htake (rest : Buffer) : (above ++ title :: rest).take (above.length + 2) =
      above ++ title :: rest.take 1 :=
    List.take_length_add_append 2
  have hdrop (rest : Buffer) : (above ++ title :: rest).drop (above.length + 2) = rest.drop 1 :=
    List.drop_length_add_append 2
  -- Below the title stands an empty line, or nothing.
  have hcases : ensureEmptyAt below 0 = [] ∧ belowGap below = [] ∨
      ∃ rest, ensureEmptyAt below 0 = [] :: rest ∧ belowGap below = rest := by
    rw [ensureEmptyAt_zero]
    split
    · next hnone => exact Or.inl ⟨rfl, by rw [hnone]; rfl⟩
    · exact Or.inr ⟨_, rfl, rfl⟩
  have hempty : ([] : Line) ≠ topAnchor := by decide
  rw [hgap, ensureTopAnchor_eq_parts, anchorsAbove, htake, hdrop, withoutAnchors_append,
    withoutAnchors_cons_of_ne htitle, List.count_append, List.count_cons_of_ne htitle]
  rcases hcases with ⟨hnone, hbelow⟩ | ⟨rest, hsome, hbelow⟩
  · rw [hnone, hbelow]
    simp [hplace, withoutAnchors]
  · rw [hsome, hbelow]
    simp [hplace, withoutAnchors, hempty]

/-- The frontmatter block stands above the title, and no title between the two. -/
theorem Entitled.exists_above {name : List Char} {pretty : Bool}
    (hcut : Entitled (front ++ back) front.length name pretty above title below) :
    ∃ middle, above = front ++ middle ∧ ∀ line ∈ middle, titleOfLine? line = none := by
  generalize hlines : front ++ back = lines at hcut
  cases hcut with
  | found hparts hstart hfirst htitle =>
    have htake : above.take front.length = front := by
      have := congrArg (List.take front.length) (hlines.trans hparts)
      rwa [List.take_left, List.take_append_of_le_length hstart, eq_comm] at this
    refine ⟨above.drop front.length, ?_, hfirst⟩
    conv => lhs; rw [← List.take_append_drop front.length above, htake]
  | made hnone =>
    refine ⟨[[]], by rw [← hlines, List.take_left], ?_⟩
    intro line hline
    rw [List.mem_singleton.mp hline]
    rfl

/-- A title is no anchor, found or made. -/
theorem Entitled.title_ne_topAnchor {start : Nat} {name : List Char} {pretty : Bool}
    (h : Entitled lines start name pretty above title below) : title ≠ topAnchor := by
  rintro rfl
  generalize htitle : topAnchor = anchor at h
  cases h with
  | found _ _ _ hsome =>
    subst htitle
    cases hsome
  | made => cases htitle

/-! ### The three stages -/

/-- The buffer that a frontmatter block is looked for or put in, and where the search for the
title starts. -/
def titleStart (lines : Buffer) (create : Bool) : Buffer × Nat :=
  ((ensureFrontmatter lines create).1, (ensureFrontmatter lines create).2.elim 0 (· + 1))

theorem titleStart_le (lines : Buffer) (create : Bool) :
    (titleStart lines create).2 ≤ (titleStart lines create).1.length := by
  obtain ⟨front, back, fence, hfenced, hstage⟩ := fenced_ensureFrontmatter lines create
  rw [titleStart, hstage, hfenced.start_eq, List.length_append]
  exact Nat.le_add_right _ _

/-- The buffer that the title is looked for in: that of the note, below a new block if there is
one. -/
theorem titleStart_fst (lines : Buffer) (create : Bool) :
    (titleStart lines create).1 = newBlock lines create ++ lines := by
  obtain ⟨front, back, fence, hfenced, hstage⟩ := fenced_ensureFrontmatter lines create
  rw [titleStart, hstage, hfenced.append_eq]

theorem titleStart_append {front : Buffer} (h : EndsFrontmatter front) (back : Buffer)
    (create : Bool) : titleStart (front ++ back) create = (front ++ back, front.length) := by
  rw [titleStart, ensureFrontmatter_append h]
  exact congrArg (front ++ back, ·) (Nat.sub_add_cancel h.length_pos)

theorem titleStart_of_none (h : findFrontmatter lines = none) :
    titleStart lines false = (lines, 0) := by
  rw [titleStart, ensureFrontmatter_of_none h]
  rfl

/-- The block that is made where there is none. -/
theorem titleStart_of_create (h : findFrontmatter lines = none) :
    titleStart lines true = ([fenceLine, fenceLine] ++ [] :: lines, 2) := by
  rw [titleStart, ensureFrontmatter, h]
  rfl

theorem endsFrontmatter_fences : EndsFrontmatter [fenceLine, fenceLine] :=
  ⟨[], fenceLine, [], fenceLine, ⟨by simp, by decide, by simp, by decide⟩, rfl⟩

/-- Taking anchors out of a frontmatter block leaves a frontmatter block. -/
theorem IsFrontmatter.withoutAnchors {blanks middle : Buffer} {opening closing : Line}
    (h : IsFrontmatter blanks opening middle closing) :
    IsFrontmatter blanks opening (withoutAnchors middle) closing :=
  ⟨h.blank, h.opens, fun line hline => h.inside line (List.mem_of_mem_filter hline), h.closes⟩

theorem IsFrontmatter.withoutAnchors_eq {blanks middle : Buffer} {opening closing : Line}
    (h : IsFrontmatter blanks opening middle closing) :
    Waymark.withoutAnchors (blanks ++ opening :: (middle ++ [closing])) =
      blanks ++ opening :: (Waymark.withoutAnchors middle ++ [closing]) := by
  have hfence : ∀ line, isFence line = true → line ≠ topAnchor := by
    rintro _ hline rfl
    revert hline
    decide
  have hblanks : Waymark.withoutAnchors blanks = blanks := by
    refine withoutAnchors_eq_self fun hmem => ?_
    have := h.blank _ hmem
    revert this
    decide
  have hclosing : Waymark.withoutAnchors [closing] = [closing] :=
    withoutAnchors_cons_of_ne (hfence closing h.closes)
  rw [withoutAnchors_append, withoutAnchors_cons_of_ne (hfence opening h.opens),
    withoutAnchors_append, hblanks, hclosing]

theorem EndsFrontmatter.withoutAnchors (h : EndsFrontmatter front) :
    EndsFrontmatter (withoutAnchors front) := by
  obtain ⟨blanks, opening, middle, closing, hblock, rfl⟩ := h
  exact ⟨blanks, opening, _, closing, hblock.withoutAnchors, hblock.withoutAnchors_eq⟩

/-- The buffer with its title, the index of the title, and its text. -/
def titledLines (lines : Buffer) (name : List Char) (options : Options) :
    Buffer × Nat × List Char :=
  ensureTitle (ensureFrontmatter lines options.createFrontmatter).1
    (ensureFrontmatter lines options.createFrontmatter).2 name options.prettifyTitle

/-- The first three stages cut the note at one title. -/
theorem exists_entitled_arrangeTop (lines : Buffer) (name : List Char) (options : Options) :
    ∃ above title below text,
      Entitled (titleStart lines options.createFrontmatter).1
        (titleStart lines options.createFrontmatter).2 name options.prettifyTitle
          above title below ∧
      titledLines lines name options = (above ++ title :: below, above.length, text) ∧
      arrangeTop lines name options =
        (withoutAnchors above ++ title :: [] :: topAnchor ::
          ensureEmptyAt (withoutAnchors (belowGap below)) 0,
          (withoutAnchors above).length + 2) := by
  obtain ⟨above, title, below, text, hcut, heq⟩ := entitled_ensureTitle
    (titleStart lines options.createFrontmatter).1
    (ensureFrontmatter lines options.createFrontmatter).2 name options.prettifyTitle
    (titleStart_le lines options.createFrontmatter)
  refine ⟨above, title, below, text, hcut, heq, ?_⟩
  rw [← ensureTopAnchor_eq above title below hcut.title_ne_topAnchor, arrangeTop]
  rw [titleStart] at heq
  simp only [heq]

/-- The buffer that the stages before the table of contents leave: the lines above the title less
their anchors, the title, an empty line, the anchor, and what stands below. -/
theorem arrangeTop_eq (lines : Buffer) (name : List Char) (options : Options) :
    ∃ above title below,
      Entitled (titleStart lines options.createFrontmatter).1
        (titleStart lines options.createFrontmatter).2 name options.prettifyTitle
          above title below ∧
      arrangeTop lines name options =
        (withoutAnchors above ++ title :: [] :: topAnchor ::
          ensureEmptyAt (withoutAnchors (belowGap below)) 0,
          (withoutAnchors above).length + 2) := by
  obtain ⟨above, title, below, -, hcut, -, htop⟩ := exists_entitled_arrangeTop lines name options
  exact ⟨above, title, below, hcut, htop⟩

end Waymark
