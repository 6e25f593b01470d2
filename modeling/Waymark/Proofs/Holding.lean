import Waymark.Vault.Holder

/-!
# Holding paths

Whether a path is held is read off the deadlines: it is if one of them is the path's and lies
ahead. So what a call does to the holds is told by the deadlines that it leaves.

## Main definitions

* `Holds.Lasts` — a hold of the path lasts up to a time at least
* `Holds.EndsBy` — no hold of the path lasts beyond a time

## Main results

* `Holds.isHeld_fst_iff` — a path is held if a deadline of its own lies ahead
* `Holds.mem_release_iff`, `Holds.mem_hold_iff`, `Holds.mem_purge_iff` — the deadlines that a call
  leaves
* `Holds.lasts_hold`, `Holds.endsBy_hold` — how long a hold lasts
* `Holds.isHeld_purge` — what has expired makes no difference later on
* `Holds.isHeld_hold_self_iff`, `Holds.isHeld_hold_other`, `Holds.isHeld_release_self`,
  `Holds.isHeld_release_other` — what holding and releasing a path mean for it and for others
-/

namespace Waymark

/-! ### Spellings of a path -/

theorem Path.same_iff {p q : Path} : p.same q = true ↔ p.components = q.components := by
  simp [Path.same]

theorem Path.same_eq_false_iff {p q : Path} : p.same q = false ↔ p.components ≠ q.components := by
  simp [Path.same]

namespace Holds

variable {holds : Holds} {path other : Path} {now later time deadline : Nat}
variable {entry : List Component × Nat}

/-! ### The deadlines that a call leaves -/

@[simp] theorem duration_purge : (holds.purge now).duration = holds.duration := rfl

theorem mem_release_iff : entry ∈ (holds.release path).deadlines ↔
    entry ∈ holds.deadlines ∧ entry.1 ≠ path.components := by
  simp [release]

theorem mem_hold_iff : entry ∈ (holds.hold path now).deadlines ↔
    entry = (path.components, now + holds.duration) ∨
      (entry ∈ holds.deadlines ∧ entry.1 ≠ path.components) := by
  simp [hold, mem_release_iff]

theorem mem_purge_iff : entry ∈ (holds.purge now).deadlines ↔
    entry ∈ holds.deadlines ∧ now < entry.2 := by
  simp [purge]

/-- A path is held exactly if one of its deadlines lies ahead. -/
theorem isHeld_fst_iff : (holds.isHeld path now).1 = true ↔
    ∃ deadline, (path.components, deadline) ∈ holds.deadlines ∧ now < deadline := by
  simp only [isHeld, List.any_eq_true, beq_iff_eq, mem_purge_iff, Prod.exists]
  constructor
  · rintro ⟨_, deadline, hmem, rfl⟩
    exact ⟨deadline, hmem⟩
  · rintro ⟨deadline, hmem⟩
    exact ⟨_, deadline, hmem, rfl⟩

/-! ### How long a hold lasts -/

/-- A hold of the path lasts up to the time, or longer. -/
def Lasts (holds : Holds) (path : Path) (time : Nat) : Prop :=
  ∃ deadline, (path.components, deadline) ∈ holds.deadlines ∧ time ≤ deadline

/-- No hold of the path lasts beyond the time. -/
def EndsBy (holds : Holds) (path : Path) (time : Nat) : Prop :=
  ∀ deadline, (path.components, deadline) ∈ holds.deadlines → deadline ≤ time

theorem Lasts.isHeld (h : holds.Lasts path time) (hnow : now < time) :
    (holds.isHeld path now).1 = true := by
  obtain ⟨deadline, hmem, hle⟩ := h
  exact isHeld_fst_iff.mpr ⟨deadline, hmem, Nat.lt_of_lt_of_le hnow hle⟩

theorem Lasts.of_same (h : holds.Lasts path time) (hsame : path.components = other.components) :
    holds.Lasts other time := by
  obtain ⟨deadline, hmem, hle⟩ := h
  exact ⟨deadline, hsame ▸ hmem, hle⟩

theorem EndsBy.of_same (h : holds.EndsBy path time) (hsame : path.components = other.components) :
    holds.EndsBy other time := fun deadline hmem => h deadline (hsame ▸ hmem)

theorem EndsBy.not_isHeld (h : holds.EndsBy path time) (hnow : time ≤ now) :
    ¬ (holds.isHeld path now).1 = true := by
  rw [isHeld_fst_iff]
  rintro ⟨deadline, hmem, hlt⟩
  exact absurd (h deadline hmem) (by omega)

theorem lasts_hold (holds : Holds) (path : Path) (now : Nat) :
    (holds.hold path now).Lasts path (now + holds.duration) :=
  ⟨_, mem_hold_iff.mpr (.inl rfl), Nat.le_refl _⟩

/-- A later hold of whatever path does not cut a hold short. -/
theorem Lasts.hold (h : holds.Lasts path time) (hlate : time ≤ now + holds.duration) :
    (holds.hold other now).Lasts path time := by
  by_cases hsame : path.components = other.components
  · exact ⟨_, mem_hold_iff.mpr (.inl (by rw [hsame])), hlate⟩
  · obtain ⟨deadline, hmem, hle⟩ := h
    exact ⟨deadline, mem_hold_iff.mpr (.inr ⟨hmem, hsame⟩), hle⟩

theorem Lasts.release (h : holds.Lasts path time) (hother : path.components ≠ other.components) :
    (holds.release other).Lasts path time := by
  obtain ⟨deadline, hmem, hle⟩ := h
  exact ⟨deadline, mem_release_iff.mpr ⟨hmem, hother⟩, hle⟩

theorem Lasts.purge (h : holds.Lasts path time) (hnow : now < time) :
    (holds.purge now).Lasts path time := by
  obtain ⟨deadline, hmem, hle⟩ := h
  exact ⟨deadline, mem_purge_iff.mpr ⟨hmem, Nat.lt_of_lt_of_le hnow hle⟩, hle⟩

theorem endsBy_hold (holds : Holds) (path : Path) (now : Nat) :
    (holds.hold path now).EndsBy path (now + holds.duration) := by
  intro deadline hmem
  rcases mem_hold_iff.mp hmem with heq | ⟨-, hne⟩
  · exact Nat.le_of_eq (Prod.mk.inj heq).2
  · exact absurd rfl hne

theorem EndsBy.hold_other (h : holds.EndsBy path time)
    (hother : path.components ≠ other.components) : (holds.hold other now).EndsBy path time := by
  intro deadline hmem
  rcases mem_hold_iff.mp hmem with heq | ⟨hmem, -⟩
  · exact absurd (Prod.mk.inj heq).1 hother
  · exact h deadline hmem

theorem EndsBy.release (h : holds.EndsBy path time) : (holds.release other).EndsBy path time :=
  fun deadline hmem => h deadline (mem_release_iff.mp hmem).1

theorem EndsBy.purge (h : holds.EndsBy path time) : (holds.purge now).EndsBy path time :=
  fun deadline hmem => h deadline (mem_purge_iff.mp hmem).1

/-- A path that was released has no hold at all. -/
theorem endsBy_release : (holds.release path).EndsBy path 0 :=
  fun _ hmem => absurd rfl (mem_release_iff.mp hmem).2

/-! ### Holds that have expired -/

/-- What has expired stays so. -/
theorem purge_purge (hnow : now ≤ later) : (holds.purge now).purge later = holds.purge later := by
  have hlive : ∀ entry ∈ holds.deadlines, (decide (now < entry.2) && decide (later < entry.2)) =
      decide (later < entry.2) := by
    intro entry _
    by_cases h : later < entry.2
    · simp [h, Nat.lt_of_le_of_lt hnow h]
    · simp [h]
  simp only [purge, List.filter_filter]
  congr 1
  exact List.filter_congr fun entry hmem => by rw [Bool.and_comm]; exact hlive entry hmem

theorem isHeld_purge (hnow : now ≤ later) :
    (holds.purge now).isHeld path later = holds.isHeld path later := by
  simp only [isHeld, purge_purge hnow]

theorem purge_release : (holds.release path).purge now = (holds.purge now).release path := by
  simp only [purge, release, List.filter_filter, Bool.and_comm]

theorem purge_release_purge :
    ((holds.purge now).release path).purge now = (holds.release path).purge now := by
  rw [purge_release, purge_release, purge_purge (Nat.le_refl _)]

/-- A hold that is taken does not bring back what has expired. -/
theorem purge_hold_purge :
    ((holds.purge now).hold path now).purge now = (holds.hold path now).purge now := by
  simp only [hold, ← purge_release]
  -- The new hold stands in front on both sides, whether or not it lasts.
  simp only [purge, List.filter_cons, List.filter_filter, Bool.and_self]

theorem release_hold : (holds.hold path now).release path = holds.release path := by
  simp [hold, release]

/-- There is nothing to release where the path is not held. -/
theorem release_purge (hfree : (holds.isHeld path now).1 = false) :
    (holds.purge now).release path = holds.purge now := by
  have hnone : ∀ entry ∈ (holds.purge now).deadlines, entry.1 ≠ path.components := by
    rintro ⟨components, deadline⟩ hmem rfl
    have hheld := isHeld_fst_iff.mpr ⟨deadline, mem_purge_iff.mp hmem⟩
    rw [hfree] at hheld
    cases hheld
  have hkeep : (holds.purge now).deadlines.filter (fun entry => entry.1 != path.components) =
      (holds.purge now).deadlines :=
    List.filter_eq_self.mpr fun entry hmem => by simpa using hnone entry hmem
  rw [release, hkeep]

/-! ### What a call means for a path -/

theorem isHeld_hold_self_iff :
    ((holds.hold path now).isHeld path time).1 = true ↔ time < now + holds.duration := by
  rw [isHeld_fst_iff]
  constructor
  · rintro ⟨deadline, hmem, hlt⟩
    exact Nat.lt_of_lt_of_le hlt (endsBy_hold holds path now deadline hmem)
  · intro hlt
    exact ⟨_, mem_hold_iff.mpr (.inl rfl), hlt⟩

theorem isHeld_hold_other (hother : path.components ≠ other.components) :
    ((holds.hold other now).isHeld path time).1 = (holds.isHeld path time).1 := by
  rw [Bool.eq_iff_iff]
  simp only [isHeld_fst_iff, mem_hold_iff, Prod.mk.injEq, hother, false_and, false_or, ne_eq,
    not_false_eq_true, and_true]

theorem isHeld_release_self : ((holds.release path).isHeld path time).1 = false := by
  simpa using endsBy_release.not_isHeld (Nat.zero_le time)

theorem isHeld_release_other (hother : path.components ≠ other.components) :
    ((holds.release other).isHeld path time).1 = (holds.isHeld path time).1 := by
  rw [Bool.eq_iff_iff]
  simp only [isHeld_fst_iff, mem_release_iff, ne_eq, hother, not_false_eq_true, and_true]

/-! ### Spellings -/

theorem hold_of_same (hsame : path.components = other.components) :
    holds.hold path now = holds.hold other now := by
  simp only [hold, release, hsame]

theorem release_of_same (hsame : path.components = other.components) :
    holds.release path = holds.release other := by
  simp only [release, hsame]

theorem isHeld_of_same (hsame : path.components = other.components) :
    holds.isHeld path now = holds.isHeld other now := by
  simp only [isHeld, hsame]

end Holds

end Waymark
