import Waymark.Proofs.Pieces
import Waymark.Proofs.Spellings

/-!
# Paths as seen from a root

Paths are compared by their components, but the path that is seen from a root keeps the spelling it
has behind the root. The two fit together for one reason: a segment that counts stands for the same
component at the front of a path and behind it, and a segment that does not count stands for none,
unless it is at the front. What is left of a path starts with a segment that counts, so it spells
the remaining components wherever it stands, on its own and below the root.

The components joined with slashes are a spelling of the path too. The slash of the root is followed
by one more, and the empty segment between the two does not count. So the joined form is the same
for two paths only if they have the same components.

## Main definitions

* `Path.innerComponents` — what segments stand for behind the front of a path
* `Path.StartsCounted` — the first segment counts
* `Path.segmentsBehind` — the segments that are left behind some components
* `Path.IsRemainder` — what is left of a path behind a root

## Main results

* `Path.components_textBehind` — the text behind some components spells the other ones
* `Path.components_join` — components below a root
* `Path.components_vaultText` — the components joined with slashes are a spelling of the path
* `Path.relativeTo?_exact` — which paths are seen from a root, and what is seen of them
-/

namespace Waymark

namespace Path

/-- The components that segments stand for behind the front of a path. -/
def innerComponents (pieces : List (List Char)) : List Component :=
  (pieces.filter (!isSkipped ·)).map .ofSegment

/-- The first of the segments counts. -/
def StartsCounted (pieces : List (List Char)) : Prop :=
  ∀ piece ∈ pieces.head?, isSkipped piece = false

/-- The segments of a path behind its front and `count` more that count, from the first to the last
one of them that counts. -/
def segmentsBehind (path : Path) (count : Nat) : List (List Char) :=
  dropTrailing ((dropSegments count (path.segments.drop 1)).dropWhile isSkipped)

/-- What is left of a path behind the components of a root. -/
structure IsRemainder (root path inner : Path) : Prop where
  /-- The components of the root and those that are left are the components of the path. -/
  components_eq : path.components = root.components ++ inner.components
  /-- Something is left. -/
  components_ne : inner.components ≠ []
  /-- Below the root, what is left is the path again. -/
  join_same : (root.join inner).same path = true
  /-- For the excluded folders, the components that are left are joined with slashes. -/
  vaultText_eq : inner.vaultText = .ofList (['/'].intercalate
    ((path.components.drop root.components.length).map Component.text))
  /-- What is left is spelled as it is in the path. -/
  infix_text : inner.text <:+: path.text

variable {root path inner other : Path} {first piece : List Char}
variable {rest more pieces above below : List (List Char)} {count : Nat}

/-! ### Segments -/

theorem exists_segments (path : Path) : ∃ first rest, path.segments = first :: rest :=
  List.exists_cons_of_ne_nil (List.splitOn_ne_nil _ _)

theorem slash_not_mem (h : piece ∈ path.segments) : '/' ∉ piece :=
  not_mem_of_mem_splitOn h

theorem intercalate_segments (path : Path) : ['/'].intercalate path.segments = path.text :=
  List.intercalate_splitOn '/'

theorem segments_intercalate (hne : pieces ≠ []) (h : ∀ piece ∈ pieces, '/' ∉ piece) :
    segments ⟨['/'].intercalate pieces⟩ = pieces :=
  List.splitOn_intercalate '/' h hne

theorem components_of_segments (h : path.segments = first :: rest) :
    path.components = frontComponent first rest ++ innerComponents rest := by
  rw [components, h]
  rfl

theorem frontComponent_of_ne_nil (h : first ≠ []) :
    frontComponent first rest = [.ofSegment first] := by
  simp [frontComponent, h]

/-- The front of a path only depends on whether other segments follow. -/
theorem frontComponent_congr (h : rest = [] ↔ more = []) :
    frontComponent first rest = frontComponent first more := by
  simp [frontComponent, h]

/-! ### Segments that do not count -/

theorem innerComponents_append (above below : List (List Char)) :
    innerComponents (above ++ below) = innerComponents above ++ innerComponents below := by
  rw [innerComponents, List.filter_append, List.map_append]
  rfl

theorem innerComponents_eq_nil (h : ∀ piece ∈ pieces, isSkipped piece = true) :
    innerComponents pieces = [] := by
  rw [innerComponents, List.map_eq_nil_iff, List.filter_eq_nil_iff]
  exact fun piece hmem => by simp [h piece hmem]

theorem innerComponents_cons_of_counted (h : isSkipped first = false) :
    innerComponents (first :: rest) = .ofSegment first :: innerComponents rest := by
  rw [innerComponents, List.filter_cons_of_pos (by simp [h])]
  rfl

theorem innerComponents_dropWhile (pieces : List (List Char)) :
    innerComponents (pieces.dropWhile isSkipped) = innerComponents pieces := by
  obtain ⟨run, hrun, hskipped⟩ :=
    (dropWhile_eq_iff.mp (rfl : pieces.dropWhile isSkipped = _)).1
  conv_rhs => rw [hrun, innerComponents_append, innerComponents_eq_nil hskipped, List.nil_append]

theorem exists_dropTrailing_append (pieces : List (List Char)) :
    ∃ run, pieces = dropTrailing pieces ++ run ∧ ∀ piece ∈ run, isSkipped piece = true :=
  (rdropWhile_eq_iff.mp rfl).1

theorem innerComponents_dropTrailing (pieces : List (List Char)) :
    innerComponents (dropTrailing pieces) = innerComponents pieces := by
  obtain ⟨run, hrun, hskipped⟩ := exists_dropTrailing_append pieces
  conv_rhs => rw [hrun, innerComponents_append, innerComponents_eq_nil hskipped, List.append_nil]

/-- Behind segments that count, the components behind theirs are left. -/
theorem innerComponents_dropSegments (count : Nat) (pieces : List (List Char)) :
    innerComponents (dropSegments count pieces) = (innerComponents pieces).drop count := by
  induction count generalizing pieces with
  | zero => rfl
  | succ count ih =>
    rw [dropSegments, ih, ← innerComponents_dropWhile pieces]
    cases hcut : pieces.dropWhile isSkipped with
    | nil => simp [innerComponents]
    | cons piece more =>
      have hcounts : isSkipped piece = false := eq_false_of_mem_head?_dropWhile (by rw [hcut]; rfl)
      rw [innerComponents_cons_of_counted hcounts]
      rfl

theorem dropTrailing_isPrefix (pieces : List (List Char)) : dropTrailing pieces <+: pieces := by
  obtain ⟨run, hrun, -⟩ := exists_dropTrailing_append pieces
  exact ⟨run, hrun.symm⟩

theorem dropSegments_isSuffix (count : Nat) (pieces : List (List Char)) :
    dropSegments count pieces <:+ pieces := by
  induction count generalizing pieces with
  | zero => exact List.suffix_rfl
  | succ count ih =>
    rw [dropSegments]
    exact (ih _).trans ((List.drop_suffix _ _).trans (List.dropWhile_suffix _))

/-! ### The components that a text spells -/

/-- Where the first segment counts, every segment is read as it is behind the front of a path. -/
theorem components_of_startsCounted (h : StartsCounted path.segments) :
    path.components = innerComponents path.segments := by
  obtain ⟨first, rest, hsegments⟩ := exists_segments path
  rw [hsegments] at h
  have hfirst : isSkipped first = false := h first rfl
  have hne : first ≠ [] := by
    rintro rfl
    cases hfirst
  rw [components_of_segments hsegments, frontComponent_of_ne_nil hne, hsegments,
    innerComponents_cons_of_counted hfirst]
  rfl

theorem components_intercalate (hstart : StartsCounted pieces)
    (hclean : ∀ piece ∈ pieces, '/' ∉ piece) :
    components ⟨['/'].intercalate pieces⟩ = innerComponents pieces := by
  by_cases hnone : pieces = []
  · rw [hnone]
    rfl
  · have hsegments := segments_intercalate hnone hclean
    rw [components_of_startsCounted (by rwa [hsegments]), hsegments]

theorem startsCounted_dropTrailing (pieces : List (List Char)) :
    StartsCounted (dropTrailing (pieces.dropWhile isSkipped)) := by
  intro piece hpiece
  -- Cutting at the end leaves the first segment alone, if it leaves any.
  obtain ⟨run, hrun, -⟩ := exists_dropTrailing_append (pieces.dropWhile isSkipped)
  have hhead : piece ∈ (pieces.dropWhile isSkipped).head? := by
    rw [hrun, List.head?_append, Option.mem_def.mp hpiece]
    rfl
  exact eq_false_of_mem_head?_dropWhile hhead

theorem prefix_cons_dropTrailing (first : List Char) (rest : List (List Char)) :
    first :: dropTrailing rest <+: first :: rest :=
  (List.prefix_cons_inj first).mpr (dropTrailing_isPrefix rest)

/-- Cut at its end, a path is a bare root, or it goes on up to the last segment that counts. -/
theorem withoutTrailing_of_segments (h : path.segments = first :: rest) :
    (first = [] ∧ dropTrailing rest = [] ∧ rest ≠ [] ∧ path.withoutTrailing = ['/']) ∨
      ((first = [] → dropTrailing rest = [] → rest = []) ∧
        path.withoutTrailing = ['/'].intercalate (first :: dropTrailing rest)) := by
  simp only [withoutTrailing, h]
  split
  next hroot => exact Or.inl (by simpa [and_assoc] using hroot)
  next hmore => exact Or.inr (by simpa using hmore)

/-- A path without the segments at its end that do not count has the same components. -/
theorem components_withoutTrailing (path : Path) :
    components ⟨path.withoutTrailing⟩ = path.components := by
  obtain ⟨first, rest, hsegments⟩ := exists_segments path
  rw [components_of_segments hsegments, ← innerComponents_dropTrailing rest]
  obtain ⟨rfl, hnone, hrest, htext⟩ | ⟨hnot, htext⟩ := withoutTrailing_of_segments hsegments
  · have hfront : frontComponent [] rest = frontComponent [] [[]] :=
      frontComponent_congr (by simp [hrest])
    rw [htext, hnone, hfront]
    rfl
  · have hclean : ∀ piece ∈ first :: dropTrailing rest, '/' ∉ piece := fun piece hmem =>
      slash_not_mem (hsegments ▸ (prefix_cons_dropTrailing first rest).subset hmem)
    rw [htext, components_of_segments (segments_intercalate (List.cons_ne_nil _ _) hclean)]
    by_cases hfirst : first = []
    · have hnone : rest = [] → dropTrailing rest = [] := by
        rintro rfl
        rfl
      rw [frontComponent_congr ⟨hnot hfirst, hnone⟩]
    · rw [frontComponent_of_ne_nil hfirst, frontComponent_of_ne_nil hfirst]

theorem components_eq_nil_iff : path.components = [] ↔ path.text = [] := by
  constructor
  · intro h
    obtain ⟨first, rest, hsegments⟩ := exists_segments path
    rw [components_of_segments hsegments] at h
    have hfront := (List.append_eq_nil_iff.mp h).1
    by_cases hfirst : first = []
    · -- An empty first segment stands for no root only if it is the whole path.
      have hrest : rest = [] := by simpa [frontComponent, hfirst] using hfront
      rw [← intercalate_segments, hsegments, hfirst, hrest]
      rfl
    · rw [frontComponent_of_ne_nil hfirst] at hfront
      cases hfront
  · intro h
    obtain ⟨text⟩ := path
    obtain rfl : text = [] := h
    rfl

/-! ### The text behind some components -/

theorem isInfix_segmentsBehind (path : Path) (count : Nat) :
    path.segmentsBehind count <:+: path.segments :=
  (dropTrailing_isPrefix _).isInfix.trans
    (((List.dropWhile_suffix _).trans (dropSegments_isSuffix _ _)).trans
      (List.drop_suffix _ _)).isInfix

theorem slash_not_mem_segmentsBehind (h : piece ∈ path.segmentsBehind count) : '/' ∉ piece :=
  slash_not_mem ((isInfix_segmentsBehind path count).subset h)

theorem startsCounted_segmentsBehind (path : Path) (count : Nat) :
    StartsCounted (path.segmentsBehind count) :=
  startsCounted_dropTrailing _

theorem innerComponents_segmentsBehind (path : Path) (count : Nat) :
    innerComponents (path.segmentsBehind count) =
      (innerComponents (path.segments.drop 1)).drop count := by
  rw [segmentsBehind, innerComponents_dropTrailing, innerComponents_dropWhile,
    innerComponents_dropSegments]

theorem textBehind_succ (path : Path) (count : Nat) :
    path.textBehind (count + 1) = ['/'].intercalate (path.segmentsBehind count) :=
  rfl

/-- The text behind some components of a path spells the other ones. -/
theorem components_textBehind (path : Path) (count : Nat) :
    components ⟨path.textBehind count⟩ = path.components.drop count := by
  cases count with
  | zero => exact components_withoutTrailing path
  | succ count =>
    obtain ⟨first, rest, hsegments⟩ := exists_segments path
    rw [textBehind_succ, components_intercalate (startsCounted_segmentsBehind path count)
      fun piece => slash_not_mem_segmentsBehind]
    rw [innerComponents_segmentsBehind, components_of_segments hsegments, hsegments,
      List.drop_succ_cons, List.drop_zero]
    -- The first component is the one at the front, if there is any component at all.
    by_cases hfirst : first = []
    · cases rest with
      | nil => simp [frontComponent, innerComponents, hfirst]
      | cons piece rest =>
        rw [hfirst]
        rfl
    · rw [frontComponent_of_ne_nil hfirst]
      rfl

theorem startsCounted_textBehind (h : path.textBehind (count + 1) ≠ []) :
    StartsCounted (segments ⟨path.textBehind (count + 1)⟩) := by
  rw [textBehind_succ] at h ⊢
  have hne : path.segmentsBehind count ≠ [] := by
    intro hnone
    exact h (by rw [hnone]; rfl)
  rw [segments_intercalate hne fun piece => slash_not_mem_segmentsBehind]
  exact startsCounted_segmentsBehind path count

/-- The text behind some components is spelled as it is in the path. -/
theorem isInfix_textBehind (path : Path) (count : Nat) : path.textBehind count <:+: path.text := by
  rw [← intercalate_segments path]
  cases count with
  | zero =>
    obtain ⟨first, rest, hsegments⟩ := exists_segments path
    rw [textBehind, hsegments]
    obtain ⟨rfl, -, hrest, htext⟩ | ⟨-, htext⟩ := withoutTrailing_of_segments hsegments
    · rw [htext, List.intercalate_cons_of_ne_nil hrest]
      exact (List.prefix_append _ _).isInfix
    · rw [htext]
      exact infix_intercalate '/' (prefix_cons_dropTrailing first rest).isInfix
  | succ count => exact infix_intercalate '/' (isInfix_segmentsBehind path count)

/-! ### Below a root -/

theorem isAbsolute_of_startsCounted (h : StartsCounted path.segments) :
    path.isAbsolute = false := by
  by_contra habsolute
  have hslash : path.text.head? = some '/' := by simpa [isAbsolute] using habsolute
  obtain ⟨text, htext⟩ := List.head?_eq_some_iff.mp hslash
  -- Before the slash at the front stands an empty segment, which does not count.
  have hsegments : path.segments = [] :: text.splitOn '/' := by
    rw [segments, htext]
    exact List.splitOn_append_cons_self [] text
  rw [hsegments] at h
  exact absurd (h [] rfl) (by decide)

/-- Below a root, a path goes on behind the segments of the root. Only an empty segment behind a
slash at the end of the root is left out. -/
theorem exists_segments_join_of_relative (hroot : root.text ≠ [])
    (hrelative : inner.isAbsolute = false) :
    ∃ first rest more, root.segments = first :: rest ++ more ∧
      (∀ piece ∈ more, isSkipped piece = true) ∧
        (root.join inner).segments = first :: rest ++ inner.segments := by
  by_cases hslash : root.text.getLast? = some '/'
  · obtain ⟨front, hfront⟩ := List.getLast?_eq_some_iff.mp hslash
    obtain ⟨first, rest, hsegments⟩ := exists_segments ⟨front⟩
    have hjoin : root.join inner = ⟨root.text ++ inner.text⟩ := by
      simp [join, hrelative, hroot, hslash]
    refine ⟨first, rest, [[]], ?_, by decide, ?_⟩
    · rw [← hsegments, segments, hfront]
      exact List.splitOn_append_cons_self front []
    · rw [hjoin, ← hsegments, segments, hfront, List.append_assoc]
      exact List.splitOn_append_cons_self front inner.text
  · obtain ⟨first, rest, hsegments⟩ := exists_segments root
    have hjoin : root.join inner = ⟨root.text ++ '/' :: inner.text⟩ := by
      simp [join, hrelative, hroot, hslash]
    refine ⟨first, rest, [], by rw [hsegments, List.append_nil], by simp, ?_⟩
    rw [hjoin, ← hsegments]
    exact List.splitOn_append_cons_self root.text inner.text

/-- A path that starts with a segment that counts has its components behind those of any root. -/
theorem components_join (hroot : root.text ≠ []) (h : StartsCounted inner.segments) :
    (root.join inner).components = root.components ++ inner.components := by
  obtain ⟨first, rest, more, hsegments, hmore, hjoin⟩ :=
    exists_segments_join_of_relative hroot (isAbsolute_of_startsCounted h)
  rw [List.cons_append] at hsegments hjoin
  have hfront : frontComponent first (rest ++ more) =
      frontComponent first (rest ++ inner.segments) := by
    by_cases hfirst : first = []
    · -- A root that is not empty has more than one segment if the first one is empty.
      have hleft : rest ++ more ≠ [] := by
        intro hnone
        rw [hnone] at hsegments
        exact hroot (by rw [← intercalate_segments, hsegments, hfirst]; rfl)
      have hright : rest ++ inner.segments ≠ [] :=
        List.append_ne_nil_of_right_ne_nil _ (List.splitOn_ne_nil _ _)
      exact frontComponent_congr (iff_of_false hleft hright)
    · rw [frontComponent_of_ne_nil hfirst, frontComponent_of_ne_nil hfirst]
  rw [components_of_segments hjoin, components_of_segments hsegments, ← hfront,
    innerComponents_append, innerComponents_append, innerComponents_eq_nil hmore,
    components_of_startsCounted h, List.append_nil, List.append_assoc]

/-! ### What is seen from a root -/

/-- A path is seen from a root if it has all components of the root and at least one more. -/
theorem relativeTo?_eq_some_iff : root.relativeTo? path = some inner ↔
    (root.components <+: path.components ∧ root.components ≠ path.components) ∧
      inner = ⟨path.textBehind root.components.length⟩ := by
  have hleft : path.textBehind root.components.length = [] ↔
      path.components.drop root.components.length = [] := by
    rw [← components_textBehind, components_eq_nil_iff]
  simp only [relativeTo?, List.isPrefixOf_iff_prefix, List.isEmpty_iff, hleft]
  constructor
  · intro h
    split at h
    next hbelow =>
      split at h
      · cases h
      next hproper =>
        refine ⟨⟨hbelow, fun heq => hproper ?_⟩, (Option.some.inj h).symm⟩
        rw [heq, List.drop_length]
    · cases h
  · rintro ⟨⟨hbelow, hproper⟩, rfl⟩
    -- If no component were left, the two would have the same ones.
    have hmore : path.components.drop root.components.length ≠ [] := fun hnone =>
      hproper (hbelow.eq_of_length_le (List.drop_eq_nil_iff.mp hnone))
    rw [if_pos hbelow, if_neg hmore]

/-- What is seen of a path from a root is what is left of the path behind the root. -/
theorem isRemainder_of_relativeTo? (h : root.relativeTo? path = some inner) :
    IsRemainder root path inner := by
  obtain ⟨⟨hbelow, hproper⟩, rfl⟩ := relativeTo?_eq_some_iff.mp h
  have hleft := components_textBehind path root.components.length
  have hparts : path.components =
      root.components ++ components ⟨path.textBehind root.components.length⟩ := by
    rw [hleft, List.prefix_iff_eq_append.mp hbelow]
  have hne : components ⟨path.textBehind root.components.length⟩ ≠ [] := fun hnone =>
    hproper (by rw [hparts, hnone, List.append_nil])
  refine ⟨hparts, hne, ?_, by rw [vaultText, hleft], isInfix_textBehind path _⟩
  rw [same_iff]
  by_cases hroot : root.text = []
  · -- Below the empty root, a path stays as it is.
    rw [join, hroot, if_pos (by simp), hleft, components_eq_nil_iff.mpr hroot]
    rfl
  · have hcount : root.components.length ≠ 0 := fun hzero =>
      hroot (components_eq_nil_iff.mp (List.length_eq_zero_iff.mp hzero))
    obtain ⟨count, hcount⟩ := Nat.exists_eq_succ_of_ne_zero hcount
    rw [hcount] at hne hparts ⊢
    rw [components_join hroot (startsCounted_textBehind (mt components_eq_nil_iff.mpr hne)),
      ← hparts]

/-! ### The components joined with slashes -/

theorem text_ofSegment (segment : List Char) : (Component.ofSegment segment).text = segment := by
  unfold Component.ofSegment
  split
  next h => exact h.symm
  next =>
    split
    next h => exact h.symm
    next => rfl

theorem map_text_innerComponents (pieces : List (List Char)) :
    (innerComponents pieces).map Component.text = pieces.filter (!isSkipped ·) := by
  rw [innerComponents, List.map_map]
  conv_rhs => rw [← List.map_id (pieces.filter (!isSkipped ·))]
  exact List.map_congr_left fun segment _ => text_ofSegment segment

theorem innerComponents_filter (pieces : List (List Char)) :
    innerComponents (pieces.filter (!isSkipped ·)) = innerComponents pieces := by
  rw [innerComponents, innerComponents, List.filter_filter]
  simp only [Bool.and_self]

/-- The components joined with slashes are a spelling of the path. -/
theorem components_vaultText (path : Path) :
    components ⟨path.vaultText.toList⟩ = path.components := by
  obtain ⟨first, rest, hsegments⟩ := exists_segments path
  have hkept : ∀ piece ∈ rest.filter (!isSkipped ·), '/' ∉ piece := fun piece hmem =>
    slash_not_mem (hsegments ▸ List.mem_cons_of_mem _ (List.mem_of_mem_filter hmem))
  rw [vaultText, String.toList_ofList, components_of_segments hsegments, List.map_append,
    map_text_innerComponents]
  by_cases hfirst : first = []
  · by_cases hrest : rest = []
    · rw [hfirst, hrest]
      rfl
    · -- The root brings two slashes, and the empty segment between them does not count.
      have hfront : frontComponent first rest = [.root] := by simp [frontComponent, hfirst, hrest]
      have htext : ['/'].intercalate ([['/']] ++ rest.filter (!isSkipped ·)) =
          ['/'].intercalate ([] :: [] :: rest.filter (!isSkipped ·)) := by
        cases rest.filter (!isSkipped ·) <;> rfl
      have hclean : ∀ piece ∈ [] :: [] :: rest.filter (!isSkipped ·), '/' ∉ piece := by
        simpa using hkept
      rw [hfront]
      refine (congrArg (fun text => components ⟨text⟩) htext).trans ?_
      rw [components_of_segments (segments_intercalate (List.cons_ne_nil _ _) hclean),
        ← innerComponents_filter rest]
      rfl
  · have hclean : ∀ piece ∈ first :: rest.filter (!isSkipped ·), '/' ∉ piece :=
      List.forall_mem_cons.mpr
        ⟨slash_not_mem (hsegments ▸ List.mem_cons_self), hkept⟩
    rw [frontComponent_of_ne_nil hfirst, List.map_singleton, text_ofSegment, List.singleton_append,
      components_of_segments (segments_intercalate (List.cons_ne_nil _ _) hclean),
      frontComponent_of_ne_nil hfirst, innerComponents_filter]

/-- Two spellings name the same path exactly if their components joined with slashes agree. -/
theorem same_iff_vaultText : path.same other = true ↔ path.vaultText = other.vaultText := by
  rw [same_iff]
  refine ⟨vaultText_of_same, fun h => ?_⟩
  rw [← components_vaultText path, h, components_vaultText]

/-- Paths are seen from a root exactly. A path is seen from a root if and only if the components of
the root are in front of its own and are not all of them, and what is seen of it is what is left
behind the root. Two spellings name the same path if and only if their components joined with
slashes agree. -/
theorem relativeTo?_exact (root path other : Path) :
    ((root.relativeTo? path).isSome = true ↔
      root.components <+: path.components ∧ root.components ≠ path.components) ∧
    (∀ inner, root.relativeTo? path = some inner → IsRemainder root path inner) ∧
    (path.same other = true ↔ path.vaultText = other.vaultText) := by
  refine ⟨?_, fun inner => isRemainder_of_relativeTo?, same_iff_vaultText⟩
  rw [Option.isSome_iff_exists]
  simp only [relativeTo?_eq_some_iff, exists_and_left, exists_eq, and_true]

/-- Slashes and dots that do not count at the ends of both paths, and within what is left. -/
theorem relativeTo?_exact_oddSpelling :
    let root : Path := .ofString "/vault/."
    let path : Path := .ofString "//vault/.//a//./../b.md/."
    let inner : Path := .ofString "a//./../b.md"
    root.relativeTo? path = some inner ∧ IsRemainder root path inner := by
  intro root path inner
  have hinner : root.relativeTo? path = some inner := by decide +kernel
  exact ⟨hinner, (relativeTo?_exact root path inner).2.1 inner hinner⟩

end Path

end Waymark
