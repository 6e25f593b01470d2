import Mathlib.Data.List.Forall2
import Mathlib.Order.Compare
import Waymark.Proofs.Holding
import Waymark.Vault.Change

/-!
# Batches of changed paths

The paths of a batch stand in the strict order of paths, so each of them stands there once, in
whatever spellings it was told. The spelling that stays is the one that came first.

## Main definitions

* `changedPaths` — the paths whose content changed in a window, as they come
* `IsBatchOf` — a batch has the changed paths of a window, each once, in their order
* `Delivers` — some batches are those of the windows with changed paths, one for each

## Main results

* `Path.order_eq_eq_iff`, `Path.order_trans` — paths are ordered by their components
* `mem_insertPath_iff`, `pairwise_insertPath` — what inserting a path leaves
* `isBatchOf_batchOf` — a batch is as it should be
* `delivers_batches` — so are the batches of some windows
-/

namespace Waymark

/-- The paths whose content changed in a window, in the order and the spellings in which they
came. -/
def changedPaths (window : List ChangeEvent) : List Path :=
  window.flatMap ChangeEvent.contentPaths

/-- The batch has the changed paths of the window, each once, in their order. -/
structure IsBatchOf (window : List ChangeEvent) (batch : List Path) : Prop where
  /-- The paths stand in their strict order. -/
  increasing : batch.Pairwise fun p q => p.order q = .lt
  /-- They are the changed paths in their first spellings. -/
  mem_iff : ∀ path, path ∈ batch ↔ (changedPaths window).find? (·.same path) = some path
  /-- Each changed path is there once, in whatever spelling. -/
  once : ∀ path ∈ changedPaths window, batch.countP (·.same path) = 1

/-- The batches are those of the windows in which the content of some path changed, one for each
and in their order. None of them is empty. -/
def Delivers (windows : List (List ChangeEvent)) (batches : List (List Path)) : Prop :=
  List.Forall₂ (fun window batch => IsBatchOf window batch ∧ batch ≠ [])
    (windows.filter fun window => changedPaths window ≠ []) batches

variable {path other p q : Path} {batch paths seen : List Path} {window : List ChangeEvent}
variable {windows : List (List ChangeEvent)}

/-! ### The order of paths -/

namespace Component

/-- A component is known by its kind and its text. -/
theorem eq_of_rank_eq {a b : Component} (hrank : a.rank = b.rank) (htext : a.text = b.text) :
    a = b := by
  cases a <;> cases b <;> simp_all [rank, text]

theorem order_eq_compareLex :
    order = compareLex (compareOn rank) fun a b => List.compareLex compare a.text b.text := rfl

instance : Std.TransCmp (fun a b : Component => List.compareLex compare a.text b.text) :=
  have htexts : Std.TransCmp (List.compareLex (compare : Char → Char → Ordering)) := inferInstance
  { eq_swap := htexts.eq_swap, isLE_trans := htexts.isLE_trans }

instance : Std.TransCmp order := by
  rw [order_eq_compareLex]
  infer_instance

instance : Std.LawfulEqCmp order where
  compare_self := Std.ReflCmp.compare_self
  eq_of_compare {a b} h := by
    rw [order, Ordering.then_eq_eq] at h
    exact eq_of_rank_eq (Std.LawfulEqCmp.eq_of_compare h.1) (Std.LawfulEqCmp.eq_of_compare h.2)

end Component

namespace Path

instance : Std.TransCmp order :=
  have hcomponents : Std.TransCmp (List.compareLex Component.order) := inferInstance
  { eq_swap := hcomponents.eq_swap, isLE_trans := hcomponents.isLE_trans }

/-- Paths stand at the same place of the order exactly if they are the same path. -/
theorem order_eq_eq_iff : p.order q = .eq ↔ p.same q = true := by
  rw [order, Std.LawfulEqCmp.compare_eq_iff_eq, same, beq_iff_eq]

theorem order_eq_gt_iff : p.order q = .gt ↔ q.order p = .lt :=
  Std.OrientedCmp.gt_iff_lt

theorem order_trans (hp : path.order p = .lt) (hq : p.order q = .lt) : path.order q = .lt :=
  Std.TransCmp.lt_trans hp hq

theorem same_comm : p.same q = q.same p := by
  rw [same, same, Bool.beq_comm]

/-- A path is no path that stands before it or behind it. -/
theorem same_eq_false_of_lt (h : p.order q = .lt) : p.same q = false ∧ q.same p = false := by
  have hnot : ¬ p.same q = true := by
    rw [← order_eq_eq_iff, h]
    exact Ordering.noConfusion
  rw [same_comm (p := q)]
  exact ⟨Bool.eq_false_iff.mpr hnot, Bool.eq_false_iff.mpr hnot⟩

end Path

/-! ### Inserting a path -/

theorem eq_or_mem_of_mem_insertPath (h : p ∈ insertPath path batch) : p = path ∨ p ∈ batch := by
  induction batch with
  | nil => exact .inl (List.mem_singleton.mp h)
  | cons first rest ih =>
    unfold insertPath at h
    split at h
    · exact List.mem_cons.mp h
    · exact .inr h
    · rcases List.mem_cons.mp h with rfl | hmem
      · exact .inr (List.mem_cons_self ..)
      · exact (ih hmem).imp id (List.mem_cons_of_mem _)

/-- Inserting a path keeps the strict order. -/
theorem pairwise_insertPath (h : batch.Pairwise fun p q => p.order q = .lt) :
    (insertPath path batch).Pairwise fun p q => p.order q = .lt := by
  induction batch with
  | nil => simp [insertPath]
  | cons first rest ih =>
    obtain ⟨hfirst, hrest⟩ := List.pairwise_cons.mp h
    unfold insertPath
    split
    next hlt =>
      refine List.pairwise_cons.mpr ⟨fun q hmem => ?_, h⟩
      rcases List.mem_cons.mp hmem with rfl | hmem
      · exact hlt
      · exact Path.order_trans hlt (hfirst q hmem)
    next => exact h
    next hgt =>
      refine List.pairwise_cons.mpr ⟨fun q hmem => ?_, ih hrest⟩
      rcases eq_or_mem_of_mem_insertPath hmem with rfl | hmem
      · exact Path.order_eq_gt_iff.mp hgt
      · exact hfirst q hmem

/-- A path is inserted unless it is there already, and nothing else comes or goes. -/
theorem mem_insertPath_iff (h : batch.Pairwise fun p q => p.order q = .lt) :
    p ∈ insertPath path batch ↔
      p ∈ batch ∨ (p = path ∧ ∀ q ∈ batch, q.same path = false) := by
  induction batch with
  | nil => simp [insertPath]
  | cons first rest ih =>
    obtain ⟨hfirst, hrest⟩ := List.pairwise_cons.mp h
    unfold insertPath
    split
    next hlt =>
      -- The path comes before the first one, and so before all others.
      have hfree : ∀ q ∈ first :: rest, q.same path = false := by
        intro q hmem
        rcases List.mem_cons.mp hmem with rfl | hmem
        · exact (Path.same_eq_false_of_lt hlt).2
        · exact (Path.same_eq_false_of_lt (Path.order_trans hlt (hfirst q hmem))).2
      rw [List.mem_cons, or_comm, and_iff_left hfree]
    next heq =>
      have hthere : ¬ ∀ q ∈ first :: rest, q.same path = false := by
        intro hfree
        have hfalse := hfree first (List.mem_cons_self ..)
        rw [Path.same_comm, Path.order_eq_eq_iff.mp heq] at hfalse
        cases hfalse
      simp only [hthere, and_false, or_false]
    next hgt =>
      have hother : first.same path = false :=
        (Path.same_eq_false_of_lt (Path.order_eq_gt_iff.mp hgt)).1
      rw [List.mem_cons, ih hrest, List.mem_cons, List.forall_mem_cons, or_assoc]
      simp only [hother, true_and]

/-! ### Collecting paths -/

/-- The batch has the paths that were told so far, each in its first spelling. -/
structure Collected (seen batch : List Path) : Prop where
  /-- The paths stand in their strict order. -/
  increasing : batch.Pairwise fun p q => p.order q = .lt
  /-- They are the paths that were told, in their first spellings. -/
  mem_iff : ∀ path, path ∈ batch ↔ seen.find? (·.same path) = some path

namespace Collected

/-- No path was told yet. -/
theorem nil : Collected [] [] where
  increasing := List.Pairwise.nil
  mem_iff path := by simp

/-- The first spelling of a path that was told is in the batch. -/
theorem mem_of_find? (h : Collected seen batch) (hfound : seen.find? (·.same path) = some p) :
    p ∈ batch := by
  have hsame : p.components = path.components := by
    simpa [Path.same] using List.find?_some hfound
  rw [h.mem_iff, ← hfound]
  congr 1
  ext q
  simp only [Path.same, hsame]

theorem mem_seen (h : Collected seen batch) (hmem : p ∈ batch) : p ∈ seen :=
  List.mem_of_find?_eq_some ((h.mem_iff p).mp hmem)

/-- One more path is told. -/
theorem concat (h : Collected seen batch) (path : Path) :
    Collected (seen ++ [path]) (insertPath path batch) where
  increasing := pairwise_insertPath h.increasing
  mem_iff p := by
    rw [mem_insertPath_iff h.increasing, h.mem_iff, List.find?_append]
    cases hfound : seen.find? (·.same p) with
    | some q =>
      -- The path was told before, so it is not what is inserted now.
      have hnot : ¬ (p = path ∧ ∀ r ∈ batch, r.same path = false) := by
        rintro ⟨rfl, hfree⟩
        have hsame := List.find?_some hfound
        rw [hfree q (h.mem_of_find? hfound)] at hsame
        cases hsame
      simp [hnot]
    | none =>
      have hfree : p = path → ∀ r ∈ batch, r.same path = false := by
        rintro rfl r hmem
        simpa using List.find?_eq_none.mp hfound r (h.mem_seen hmem)
      by_cases hpath : p = path
      · refine iff_of_true (.inr ⟨hpath, hfree hpath⟩) ?_
        simp [hpath, Path.same_iff]
      · simp [hpath, List.find?_singleton, Ne.symm hpath]

/-- Some more paths are told. -/
theorem append (h : Collected seen batch) (paths : List Path) :
    Collected (seen ++ paths) (paths.foldl (fun batch path => insertPath path batch) batch) := by
  induction paths generalizing seen batch with
  | nil => simpa using h
  | cons first rest ih =>
    rw [← List.singleton_append, ← List.append_assoc]
    exact ih (h.concat first)

/-- Every path that was told is there once. -/
theorem countP_eq_one (h : Collected seen batch) (hpath : path ∈ seen) :
    batch.countP (·.same path) = 1 := by
  obtain ⟨q, hfound⟩ : ∃ q, seen.find? (·.same path) = some q := by
    rw [← Option.isSome_iff_exists, List.find?_isSome]
    exact ⟨path, hpath, Path.same_iff.mpr rfl⟩
  have hsame : q.same path = true := by simpa using List.find?_some hfound
  -- The paths before the one that is found stand before it in the order, and the others behind.
  obtain ⟨front, back, hbatch⟩ := List.append_of_mem (h.mem_of_find? hfound)
  have hincreasing := h.increasing
  rw [hbatch] at hincreasing ⊢
  obtain ⟨-, hbehind, hbefore⟩ := List.pairwise_append.mp hincreasing
  have hfront : front.countP (·.same path) = 0 := by
    refine List.countP_eq_zero.mpr fun r hmem => ?_
    have hother := (Path.same_eq_false_of_lt (hbefore r hmem q (List.mem_cons_self ..))).1
    simpa [Path.same, Path.same_iff.mp hsame] using hother
  have hback : back.countP (·.same path) = 0 := by
    refine List.countP_eq_zero.mpr fun r hmem => ?_
    have hother := (Path.same_eq_false_of_lt ((List.pairwise_cons.mp hbehind).1 r hmem)).2
    simpa [Path.same, Path.same_iff.mp hsame] using hother
  rw [List.countP_append, List.countP_cons, hfront, hback, if_pos hsame]

end Collected

/-! ### Batches -/

/-- A batch has the changed paths of its window, each once, in their order. -/
theorem isBatchOf_batchOf (window : List ChangeEvent) : IsBatchOf window (batchOf window) := by
  have hcollected : Collected (changedPaths window) (batchOf window) :=
    Collected.nil.append (changedPaths window)
  exact ⟨hcollected.increasing, hcollected.mem_iff, fun _ => hcollected.countP_eq_one⟩

theorem IsBatchOf.eq_nil_iff (h : IsBatchOf window batch) :
    batch = [] ↔ changedPaths window = [] := by
  constructor
  · rintro rfl
    refine List.eq_nil_iff_forall_not_mem.mpr fun path hmem => ?_
    have hnone := h.once path hmem
    simp at hnone
  · intro hnone
    refine List.eq_nil_iff_forall_not_mem.mpr fun path hmem => ?_
    rw [h.mem_iff, hnone] at hmem
    cases hmem

/-- The batches of some windows are one for each window with changed paths. -/
theorem delivers_batches (windows : List (List ChangeEvent)) :
    Delivers windows (batches windows) := by
  induction windows with
  | nil => exact .nil
  | cons window rest ih =>
    have hbatch := isBatchOf_batchOf window
    by_cases hnone : changedPaths window = []
    · have hempty : batchOf window = [] := hbatch.eq_nil_iff.mpr hnone
      simpa [Delivers, batches, hnone, hempty] using ih
    · have hsome : batchOf window ≠ [] := fun hempty => hnone (hbatch.eq_nil_iff.mp hempty)
      have hwindows : (window :: rest).filter (fun window => changedPaths window ≠ []) =
          window :: rest.filter fun window => changedPaths window ≠ [] :=
        List.filter_cons_of_pos (by simpa using hnone)
      have hbatches : batches (window :: rest) = batchOf window :: batches rest := by
        simp [batches, hsome]
      rw [Delivers, hwindows, hbatches]
      exact .cons ⟨hbatch, hsome⟩ ih

end Waymark
