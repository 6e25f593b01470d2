import Mathlib.Data.List.Basic
import Mathlib.Data.List.DropRight

/-!
# Texts cut in pieces

Cutting a text at every separator loses nothing, so texts are compared by their pieces. In
particular the pieces of one text stand in front of those of another one exactly if the other text
is the same, or goes on with a separator.

Dropping a run at the front or at the end of a list cuts it in two. The cut is known by what stands
next to it.

## Main results

* `dropWhile_eq_iff`, `rdropWhile_eq_iff` — what is left when a run is dropped
* `eq_of_countP`, `eq_of_first`, `append_eq_append_iff_of_first` — when a list is cut in one way
  only
* `not_mem_of_mem_splitOn` — a piece holds no separator
* `infix_intercalate` — some pieces of a text, joined, are a part of it
* `splitOn_append_of_pieces` — pieces put behind those of a text are the pieces of a longer one
* `splitOn_isPrefix_iff` — when the pieces of a text stand in front of those of another
-/

namespace Waymark

/-! ### Runs -/

section Runs

variable {α : Type*} {p : α → Bool} {list rest : List α}

theorem dropWhile_eq_iff : list.dropWhile p = rest ↔
    (∃ run, list = run ++ rest ∧ ∀ x ∈ run, p x = true) ∧ ∀ x ∈ rest.head?, p x = false := by
  constructor
  · rintro rfl
    refine ⟨⟨list.takeWhile p, List.takeWhile_append_dropWhile.symm,
      fun x hx => List.mem_takeWhile_imp hx⟩, fun x hx => ?_⟩
    have hnot := List.head?_dropWhile_not p list
    rw [Option.mem_def.mp hx] at hnot
    simpa using hnot
  · rintro ⟨⟨run, rfl, hrun⟩, hhead⟩
    rw [List.dropWhile_append_of_pos hrun]
    cases rest with
    | nil => rfl
    | cons x rest => simp [hhead x (by simp)]

theorem rdropWhile_eq_iff : list.rdropWhile p = rest ↔
    (∃ run, list = rest ++ run ∧ ∀ x ∈ run, p x = true) ∧ ∀ x ∈ rest.getLast?, p x = false := by
  rw [List.rdropWhile, List.reverse_eq_iff, dropWhile_eq_iff, List.head?_reverse]
  -- A run at the front of the reversed list is one at the end, read backwards.
  refine and_congr_left fun _ => ⟨?_, ?_⟩
  · rintro ⟨run, hlist, hrun⟩
    exact ⟨run.reverse, by rw [← List.reverse_reverse list, hlist]; simp, by simpa using hrun⟩
  · rintro ⟨run, rfl, hrun⟩
    exact ⟨run.reverse, by simp, by simpa using hrun⟩

/-- The first element behind a run is not one of it. -/
theorem eq_false_of_mem_head?_dropWhile {x : α} (h : x ∈ (list.dropWhile p).head?) : p x = false :=
  (dropWhile_eq_iff.mp rfl).2 x h

end Runs

/-! ### Positions -/

/-- Behind its first element, a list starts one place further down. -/
theorem add_length_cons {α : Type*} (start : Nat) (x : α) (list : List α) :
    start + (x :: list).length = start + 1 + list.length := by
  rw [List.length_cons]
  omega

theorem length_append_cons {α : Type*} (front : List α) (x : α) (list : List α) :
    (front ++ x :: list).length = front.length + 1 + list.length := by
  rw [List.length_append, add_length_cons]

/-! ### Cuts at an element -/

section Cuts

variable {α : Type*}

/-- A list is cut at its first element or further down. -/
theorem exists_cut_cons_iff {x : α} {list : List α} {p : List α → α → List α → Prop} :
    (∃ front y back, x :: list = front ++ y :: back ∧ p front y back) ↔
      p [] x list ∨ ∃ front y back, list = front ++ y :: back ∧ p (x :: front) y back := by
  constructor
  · rintro ⟨front, y, back, hcut, h⟩
    cases front with
    | nil =>
      obtain ⟨rfl, rfl⟩ := List.cons.inj hcut
      exact Or.inl h
    | cons first front =>
      obtain ⟨rfl, rfl⟩ := List.cons.inj hcut
      exact Or.inr ⟨front, y, back, rfl, h⟩
  · rintro (h | ⟨front, y, back, rfl, h⟩)
    · exact ⟨[], x, list, rfl, h⟩
    · exact ⟨x :: front, y, back, rfl, h⟩

/-- An element that passes a test is known by the number of elements above it that do. -/
theorem eq_of_countP (test : α → Bool) {before before' after after' : List α} {x x' : α}
    (heq : before ++ x :: after = before' ++ x' :: after') (hx : test x = true)
    (hx' : test x' = true) (hcount : before.countP test = before'.countP test) :
    before = before' ∧ x = x' ∧ after = after' := by
  induction before generalizing before' with
  | nil =>
    cases before' with
    | nil =>
      obtain ⟨rfl, rfl⟩ := List.cons.inj heq
      exact ⟨rfl, rfl, rfl⟩
    | cons first before' =>
      obtain ⟨rfl, -⟩ := List.cons.inj heq
      rw [List.countP_cons_of_pos hx] at hcount
      simp at hcount
  | cons first before ih =>
    cases before' with
    | nil =>
      obtain ⟨rfl, -⟩ := List.cons.inj heq
      rw [List.countP_cons_of_pos hx'] at hcount
      simp at hcount
    | cons first' before' =>
      obtain ⟨rfl, hrest⟩ := List.cons.inj heq
      -- The first elements are the same, so the counts of what is left agree as well.
      rw [List.countP_cons, List.countP_cons, Nat.add_right_cancel_iff] at hcount
      obtain ⟨rfl, hsame, hafters⟩ := ih hrest hcount
      exact ⟨rfl, hsame, hafters⟩

/-- The first element that passes a test is the only first one. -/
theorem eq_of_first (test : α → Bool) {before before' after after' : List α} {x x' : α}
    (heq : before ++ x :: after = before' ++ x' :: after') (hx : test x = true)
    (hx' : test x' = true) (hbefore : ∀ l ∈ before, test l = false)
    (hbefore' : ∀ l ∈ before', test l = false) :
    before = before' ∧ x = x' ∧ after = after' :=
  eq_of_countP test heq hx hx' (by
    rw [List.countP_eq_zero.mpr fun l hl => by simp [hbefore l hl],
      List.countP_eq_zero.mpr fun l hl => by simp [hbefore' l hl]])

/-- A cut in front of the first element that passes a test is the only such cut. -/
theorem append_eq_append_iff_of_first (test : α → Bool) {front front' back back' : List α}
    (hfront : ∀ x ∈ front, test x = false) (hfront' : ∀ x ∈ front', test x = false)
    (hback : ∀ x ∈ back.head?, test x = true) (hback' : ∀ x ∈ back'.head?, test x = true) :
    front ++ back = front' ++ back' ↔ front = front' ∧ back = back' := by
  refine ⟨fun h => ?_, by rintro ⟨rfl, rfl⟩; rfl⟩
  have hdrop : (front ++ back).dropWhile (!test ·) = back :=
    dropWhile_eq_iff.mpr ⟨⟨front, rfl, by simpa using hfront⟩, by simpa using hback⟩
  have hdrop' : (front' ++ back').dropWhile (!test ·) = back' :=
    dropWhile_eq_iff.mpr ⟨⟨front', rfl, by simpa using hfront'⟩, by simpa using hback'⟩
  have hsame : back = back' := by rw [← hdrop, h, hdrop']
  subst hsame
  exact ⟨List.append_cancel_right h, rfl⟩

end Cuts

/-! ### Pieces between separators -/

variable {separator : Char} {front text piece : List Char} {pieces more : List (List Char)}

theorem not_mem_of_mem_splitOn (h : piece ∈ text.splitOn separator) : separator ∉ piece := by
  induction text generalizing piece with
  | nil => simp_all
  | cons c text ih =>
    rw [List.splitOn_cons_eq_if_modifyHead] at h
    -- A separator opens a new piece. Any other character goes in front of the first piece.
    split at h
    · rcases List.mem_cons.mp h with rfl | h
      · exact List.not_mem_nil
      · exact ih h
    · next hc =>
      cases hsplit : text.splitOn separator with
      | nil => exact absurd hsplit (List.splitOn_ne_nil _ _)
      | cons first more =>
        rw [hsplit] at h ih
        rcases List.mem_cons.mp h with rfl | h
        · have hfirst := ih List.mem_cons_self
          have hne : separator ≠ c := fun heq => hc (by simp [← heq])
          simp [hfirst, hne]
        · exact ih (List.mem_cons_of_mem _ h)

/-- A text has one piece more than separators. -/
theorem length_splitOn (separator : Char) (text : List Char) :
    (text.splitOn separator).length = text.count separator + 1 := by
  induction text with
  | nil => rfl
  | cons c text ih =>
    rw [List.splitOn_cons_eq_if_modifyHead, List.count_cons]
    split
    · rw [List.length_cons, ih]
    · rw [List.length_modifyHead, ih, Nat.add_zero]

theorem splitOn_injective (h : front.splitOn separator = text.splitOn separator) :
    front = text := by
  have hjoin := congrArg [separator].intercalate h
  rwa [List.intercalate_splitOn, List.intercalate_splitOn] at hjoin

theorem intercalate_append (hpieces : pieces ≠ []) (hmore : more ≠ []) :
    [separator].intercalate (pieces ++ more) =
      [separator].intercalate pieces ++ separator :: [separator].intercalate more := by
  induction pieces with
  | nil => exact absurd rfl hpieces
  | cons piece pieces ih =>
    by_cases hnone : pieces = []
    · rw [hnone, List.singleton_append, List.intercalate_cons_of_ne_nil hmore,
        List.intercalate_singleton, List.append_assoc, List.singleton_append]
    · rw [List.cons_append, List.intercalate_cons_of_ne_nil (by simp [hnone]), ih hnone,
        List.intercalate_cons_of_ne_nil hnone]
      simp only [List.append_assoc]

/-- Pieces in a row, joined, stand in the text of all pieces. -/
theorem infix_intercalate (separator : Char) (h : pieces <:+: more) :
    [separator].intercalate pieces <:+: [separator].intercalate more := by
  obtain ⟨above, below, rfl⟩ := h
  by_cases hnone : pieces = []
  · rw [hnone]
    exact List.nil_infix
  have hfront : [separator].intercalate pieces <:+ [separator].intercalate (above ++ pieces) := by
    by_cases habove : above = []
    · rw [habove]
      exact List.suffix_rfl
    · rw [intercalate_append habove hnone, List.append_cons]
      exact List.suffix_append _ _
  have hback : [separator].intercalate (above ++ pieces) <+:
      [separator].intercalate (above ++ pieces ++ below) := by
    by_cases hbelow : below = []
    · simp [hbelow]
    · rw [intercalate_append (by simp [hnone]) hbelow]
      exact List.prefix_append _ _
  exact hfront.isInfix.trans hback.isInfix

/-- Pieces that are put behind those of a text are the pieces of a text that goes on with a
separator. -/
theorem splitOn_append_of_pieces (front : List Char) (hne : pieces ≠ [])
    (h : ∀ piece ∈ pieces, separator ∉ piece) :
    (front ++ separator :: [separator].intercalate pieces).splitOn separator =
      front.splitOn separator ++ pieces := by
  rw [List.splitOn_append_cons_self, List.splitOn_intercalate separator h hne]

/-- The pieces of a text stand in front of those of another one exactly if the other is the same,
or goes on with a separator. -/
theorem splitOn_isPrefix_iff : front.splitOn separator <+: text.splitOn separator ↔
    text = front ∨ ∃ rest, text = front ++ separator :: rest := by
  constructor
  · rintro ⟨pieces, hpieces⟩
    by_cases hnone : pieces = []
    · left
      rw [hnone, List.append_nil] at hpieces
      exact (splitOn_injective hpieces).symm
    · -- The remaining pieces are those of the text behind the separator.
      right
      have hclean : ∀ piece ∈ pieces, separator ∉ piece := fun piece hmem =>
        not_mem_of_mem_splitOn (hpieces ▸ List.mem_append_right _ hmem)
      have hsplit := splitOn_append_of_pieces front hnone hclean
      exact ⟨[separator].intercalate pieces, splitOn_injective (hpieces.symm.trans hsplit.symm)⟩
  · rintro (rfl | ⟨rest, rfl⟩)
    · exact List.prefix_rfl
    · rw [List.splitOn_append_cons_self]
      exact List.prefix_append _ _

end Waymark
