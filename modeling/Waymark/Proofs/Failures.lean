import Waymark.Proofs.Sessions

/-!
# Failed processing

Processing a note that cannot be read or written may drop holds that have expired, and it takes
the path's own hold back. Neither shows: what a session does later depends on its holds only
through those that have not expired.

## Main definitions

* `Session.tidy` — the session without the holds that have expired
* `LeavesNoTrace` — the session is none the wiser for a call

## Main results

* `Session.step_tidy` — expired holds matter to no step
* `Session.run_congr` — nor to a run
* `Session.snd_step_of_noteError` — all that failed processing does is drop expired holds
* `Session.leavesNoTrace_process` — failed processing leaves no trace
-/

namespace Waymark

variable {keeper : Keeper} {settings : Settings} {session other : Session MemoryStore}
variable {steps : List (Step MemoryStore)} {path : Path} {error : NoteError}

/-! ### Sessions without expired holds -/

namespace Session

/-- The session without the holds that have expired. -/
def tidy (session : Session MemoryStore) : Session MemoryStore :=
  { session with holds := session.holds.purge session.now }

theorem tidy_tidy : session.tidy.tidy = session.tidy := by
  simp only [tidy, Holds.purge_purge (Nat.le_refl _)]

theorem isHeld_tidy_iff : session.tidy.IsHeld path ↔ session.IsHeld path := by
  simp only [IsHeld, tidy, Holds.isHeld_purge (Nat.le_refl _)]

end Session

/-- Whether a path is passed over does not depend on the holds that have expired. -/
theorem Keeper.skipReason?_purge (keeper : Keeper) (holds : Holds) (now : Nat) (path : Path) :
    keeper.skipReason? (holds.purge now) now path =
      ((keeper.skipReason? holds now path).1, holds.purge now) := by
  unfold skipReason?
  split
  · rfl
  split
  · rfl
  · simp only [Holds.isHeld_purge (Nat.le_refl _)]
    rfl

namespace Session

/-- A path that is passed over is all the same with and without the expired holds. -/
theorem step_process_of_skipped {reason : SkipReason} {after : Holds}
    (hskip : keeper.skipReason? session.holds session.now path = (some reason, after)) :
    session.step keeper MemoryStore.notesStore (.process path) =
      (.outcome (.skipped reason), { session with holds := after }) := by
  simp only [step, Keeper.process, hskip]
  rfl

/-- Processing drops the expired holds first, so it makes no difference if they are gone. -/
theorem step_process_tidy :
    (session.tidy.step keeper MemoryStore.notesStore (.process path)).1 =
        (session.step keeper MemoryStore.notesStore (.process path)).1 ∧
      (session.tidy.step keeper MemoryStore.notesStore (.process path)).2.tidy =
        (session.step keeper MemoryStore.notesStore (.process path)).2.tidy := by
  have htidy : keeper.skipReason? session.tidy.holds session.tidy.now path = _ :=
    Keeper.skipReason?_purge keeper session.holds session.now path
  rcases hreason : keeper.skipReason? session.holds session.now path with ⟨reason?, after⟩
  rw [hreason] at htidy
  -- Where the path is passed over, the two sessions may be the same only without expired holds.
  cases reason? with
  | some reason =>
    have hafter : after.purge session.now = session.holds.purge session.now := by
      have hcases := Keeper.snd_skipReason? keeper session.holds session.now path
      rw [hreason] at hcases
      rcases hcases with rfl | rfl
      · rfl
      · exact Holds.purge_purge (Nat.le_refl _)
    rw [step_process_of_skipped htidy, step_process_of_skipped hreason]
    simp only [tidy, Holds.purge_purge (Nat.le_refl _), hafter, and_self]
  | none =>
    -- The two calls go on from the same holds.
    have hafter := Keeper.snd_skipReason?_of_eq_none (congrArg Prod.fst hreason)
    rw [hreason] at hafter
    obtain rfl : after = session.holds.purge session.now := hafter
    have hsame : session.tidy.step keeper MemoryStore.notesStore (.process path) =
        session.step keeper MemoryStore.notesStore (.process path) := by
      simp only [step, Keeper.process, htidy, hreason]
      rfl
    rw [hsame]
    exact ⟨rfl, rfl⟩

/-- No step depends on the holds that have expired: its answer is the same without them, and so is
the session that it leaves. -/
theorem step_tidy (keeper : Keeper) (session : Session MemoryStore) (step : Step MemoryStore) :
    (session.tidy.step keeper MemoryStore.notesStore step).1 =
        (session.step keeper MemoryStore.notesStore step).1 ∧
      (session.tidy.step keeper MemoryStore.notesStore step).2.tidy =
        (session.step keeper MemoryStore.notesStore step).2.tidy := by
  have hpurge : (session.holds.purge session.now).purge session.now =
      session.holds.purge session.now := Holds.purge_purge (Nat.le_refl _)
  -- Only processing and asking look at the holds. All other steps keep them or change one.
  cases step with
  | process path => exact step_process_tidy
  | read path => exact ⟨rfl, congrArg (Session.mk session.store · session.now) hpurge⟩
  | write path text =>
    exact ⟨rfl, congrArg (Session.mk (session.store.write path text).2 · session.now) hpurge⟩
  | change change => exact ⟨rfl, congrArg (Session.mk (change session.store) · session.now) hpurge⟩
  | hold path =>
    exact ⟨rfl, congrArg (Session.mk session.store · session.now) Holds.purge_hold_purge⟩
  | release path =>
    exact ⟨rfl, congrArg (Session.mk session.store · session.now) Holds.purge_release_purge⟩
  | isHeld path =>
    simp only [Session.step, tidy, Holds.isHeld_purge (Nat.le_refl _), and_self]
  | wait milliseconds =>
    exact ⟨rfl, congrArg (Session.mk session.store · (session.now + milliseconds))
      (Holds.purge_purge (Nat.le_add_right _ _))⟩

/-- Two sessions that differ in nothing but expired holds answer every run alike. -/
theorem run_congr (halike : session.tidy = other.tidy) :
    (session.run keeper MemoryStore.notesStore steps).1 =
        (other.run keeper MemoryStore.notesStore steps).1 ∧
      (session.run keeper MemoryStore.notesStore steps).2.tidy =
        (other.run keeper MemoryStore.notesStore steps).2.tidy := by
  induction steps generalizing session other with
  | nil => exact ⟨rfl, halike⟩
  | cons first rest ih =>
    -- Both first steps are compared with the same step of the one tidy session.
    obtain ⟨hanswer, hafter⟩ := step_tidy keeper session first
    obtain ⟨hanswer', hafter'⟩ := step_tidy keeper other first
    rw [halike] at hanswer hafter
    obtain ⟨hanswers, hlast⟩ := ih (hafter.symm.trans hafter')
    simp only [run, hanswers, hlast, and_true]
    rw [← hanswer, ← hanswer']

end Session

/-! ### Failed processing -/

/-- All that failed processing does is drop the expired holds: the hold that it took to write the
note is given back. -/
theorem Session.snd_step_of_noteError
    (hfails : (session.step keeper MemoryStore.notesStore (.process path)).1 = .noteError error) :
    (session.step keeper MemoryStore.notesStore (.process path)).2 = session.tidy := by
  have hcase := processing_step keeper session path
  generalize session.step keeper MemoryStore.notesStore (.process path) = result at hcase hfails
  cases hcase with
  | unread => rfl
  | unwritten old hskip =>
    -- The path was free, so releasing it takes away the new hold and nothing else.
    obtain ⟨-, -, hfree⟩ := Keeper.skipReason?_eq_none_iff.mp hskip
    simp only [tidy, Holds.release_hold, Holds.release_purge hfree]
  | skipped => cases hfails
  | unchanged => cases hfails
  | updated => cases hfails

theorem Session.not_isHeld_of_noteError
    (hfails : (session.step keeper MemoryStore.notesStore (.process path)).1 = .noteError error) :
    ¬ session.IsHeld path := by
  have hcase := processing_step keeper session path
  generalize session.step keeper MemoryStore.notesStore (.process path) = result at hcase hfails
  cases hcase with
  | unread cause hskip | unwritten old hskip =>
    obtain ⟨-, -, hfree⟩ := Keeper.skipReason?_eq_none_iff.mp hskip
    simp [IsHeld, hfree]
  | skipped => cases hfails
  | unchanged => cases hfails
  | updated => cases hfails

/-- A call for the path in the session `before` left the session `after`, which is none the wiser
for it. -/
structure LeavesNoTrace (keeper : Keeper) (path : Path) (before after : Session MemoryStore) :
    Prop where
  /-- The store is as it was in every respect. -/
  store : after.store = before.store
  /-- The clock shows the same time. -/
  now : after.now = before.now
  /-- The path is not held. -/
  free : ¬ after.IsHeld path
  /-- All other paths are held or not as they were. -/
  others : ∀ other, path.same other = false → (after.IsHeld other ↔ before.IsHeld other)
  /-- Whatever happens next, the answers are those that would have been given without the call. -/
  answers : ∀ steps, (after.run keeper MemoryStore.notesStore steps).1 =
    (before.run keeper MemoryStore.notesStore steps).1
  /-- And the store is the one that there would have been. -/
  stores : ∀ steps, (after.run keeper MemoryStore.notesStore steps).2.store =
    (before.run keeper MemoryStore.notesStore steps).2.store

/-- After every run of a session, from whatever store, holds and clock it started, processing that
fails leaves no trace. -/
theorem Session.leavesNoTrace_process (settings : Settings) (start : Session MemoryStore)
    (steps : List (Step MemoryStore)) (path : Path) (error : NoteError) :
    let keeper := Keeper.ofSettings settings
    let before := (start.run keeper MemoryStore.notesStore steps).2
    let result := before.step keeper MemoryStore.notesStore (.process path)
    result.1 = .noteError error → LeavesNoTrace keeper path before result.2 := by
  intro keeper before result hfails
  have hafter : result.2 = before.tidy := snd_step_of_noteError hfails
  have hfree : ¬ before.IsHeld path := not_isHeld_of_noteError hfails
  have hrun : ∀ steps, (before.tidy.run keeper MemoryStore.notesStore steps).1 =
        (before.run keeper MemoryStore.notesStore steps).1 ∧
      (before.tidy.run keeper MemoryStore.notesStore steps).2.tidy =
        (before.run keeper MemoryStore.notesStore steps).2.tidy :=
    fun steps => run_congr tidy_tidy
  rw [hafter]
  exact {
    store := rfl
    now := rfl
    free := by rwa [isHeld_tidy_iff]
    others := fun _ _ => isHeld_tidy_iff
    answers := fun steps => (hrun steps).1
    stores := fun steps => congrArg (fun session => session.store) (hrun steps).2 }

/-- Where a hold of one path has expired, that of another has not, and the store begins to refuse
to be written: a note that is not as it should be. -/
theorem Session.leavesNoTrace_refusedNote :
    let path : Path := .ofString "notes//a.md"
    let start : Session MemoryStore :=
      { store := ({} : MemoryStore).insert (.ofString "notes/a.md") "## One\n## Two" }
    let steps : List (Step MemoryStore) :=
      [.hold (.ofString "b.md"), .wait 400, .hold (.ofString "c.md"), .wait 200,
        .change (·.refuse false true)]
    let keeper := Keeper.ofSettings {}
    let before := (start.run keeper MemoryStore.notesStore steps).2
    let result := before.step keeper MemoryStore.notesStore (.process path)
    result.1 = .noteError ⟨path, .writeRefused⟩ ∧ LeavesNoTrace keeper path before result.2 := by
  intro path start steps keeper before result
  have hfails : result.1 = .noteError ⟨path, .writeRefused⟩ := by decide +kernel
  exact ⟨hfails, Session.leavesNoTrace_process {} start steps path _ hfails⟩

end Waymark
