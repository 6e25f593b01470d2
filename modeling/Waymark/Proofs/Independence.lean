import Waymark.Proofs.Spellings

/-!
# Notes do not depend on each other

Two sessions are alike at a path if the note there has the same text, the store refuses the same,
and the path is held up to the same time. Processing a note looks at nothing else, and at every
other path it leaves the session alike. So two notes may be processed in either order, and a path
stands for its note whatever its spelling.

## Main definitions

* `Session.AlikeAt` — two sessions do not differ in what matters for a path
* `KnowsByComponents` — paths with the same components are one note, and others do not touch it

## Main results

* `Processing.alikeAt_other` — processing a note leaves the session alike at other paths
* `Session.AlikeAt.step_process` — sessions that are alike at a path process it alike
* `Session.knowsByComponents_process` — a note is known by the components of its path
-/

namespace Waymark

/-- Two sessions do not differ in anything that processing the note at the path looks at. -/
structure Session.AlikeAt (path : Path) (session other : Session MemoryStore) : Prop where
  /-- Their clocks show the same time. -/
  now_eq : session.now = other.now
  /-- They hold paths for the same time. -/
  duration_eq : session.holds.duration = other.holds.duration
  /-- Their stores refuse the same. -/
  refusals : session.store.refusesReads = other.store.refusesReads ∧
    session.store.refusesWrites = other.store.refusesWrites
  /-- The note has the same text in both, or is missing in both. -/
  find?_eq : session.store.find? path = other.store.find? path
  /-- From now on, the path is held in both or in neither. -/
  isHeld_eq : ∀ time, session.now ≤ time →
    (session.holds.isHeld path time).1 = (other.holds.isHeld path time).1

/-- Notes are told apart by the components of their paths, and by nothing else. -/
structure KnowsByComponents (keeper : Keeper) (session : Session MemoryStore)
    (path other : Path) : Prop where
  /-- If the components are the same, the two calls have the same answer, but for the path that an
  error shows, and leave the very same session. -/
  alike : path.same other = true →
    session.step keeper MemoryStore.notesStore (.process other) =
      ((session.step keeper MemoryStore.notesStore (.process path)).1.shownAs other,
        (session.step keeper MemoryStore.notesStore (.process path)).2)
  /-- If they are not, the two notes may be processed in either order: each has the same answer, and
  at every path the session is the same afterwards. -/
  apart : path.same other = false →
    let forth := session.run keeper MemoryStore.notesStore [.process path, .process other]
    let back := session.run keeper MemoryStore.notesStore [.process other, .process path]
    back.1 = forth.1.reverse ∧ ∀ third, forth.2.AlikeAt third back.2

variable {keeper : Keeper} {session after third : Session MemoryStore} {path other : Path}
variable {text : String} {result : Answer × Session MemoryStore}

namespace Session.AlikeAt

theorem refl (path : Path) (session : Session MemoryStore) : AlikeAt path session session :=
  ⟨rfl, rfl, ⟨rfl, rfl⟩, rfl, fun _ _ => rfl⟩

theorem symm (h : AlikeAt path session after) : AlikeAt path after session where
  now_eq := h.now_eq.symm
  duration_eq := h.duration_eq.symm
  refusals := ⟨h.refusals.1.symm, h.refusals.2.symm⟩
  find?_eq := h.find?_eq.symm
  isHeld_eq time htime := (h.isHeld_eq time (h.now_eq ▸ htime)).symm

theorem trans (h : AlikeAt path session after) (h' : AlikeAt path after third) :
    AlikeAt path session third where
  now_eq := h.now_eq.trans h'.now_eq
  duration_eq := h.duration_eq.trans h'.duration_eq
  refusals := ⟨h.refusals.1.trans h'.refusals.1, h.refusals.2.trans h'.refusals.2⟩
  find?_eq := h.find?_eq.trans h'.find?_eq
  isHeld_eq time htime := (h.isHeld_eq time htime).trans (h'.isHeld_eq time (h.now_eq ▸ htime))

/-- Sessions that are alike at a path are so at every spelling of it. -/
theorem of_same (h : AlikeAt path session after) (hsame : path.components = other.components) :
    AlikeAt other session after where
  now_eq := h.now_eq
  duration_eq := h.duration_eq
  refusals := h.refusals
  find?_eq := by
    rw [← MemoryStore.find?_of_same hsame, ← MemoryStore.find?_of_same hsame]
    exact h.find?_eq
  isHeld_eq time htime := by
    rw [← Holds.isHeld_of_same hsame, ← Holds.isHeld_of_same hsame]
    exact h.isHeld_eq time htime

/-- A session with other holds is alike at a path if they hold it up to the same time. -/
theorem of_holds {holds : Holds} (hduration : session.holds.duration = holds.duration)
    (hheld : ∀ time, session.now ≤ time →
      (session.holds.isHeld path time).1 = (holds.isHeld path time).1) :
    AlikeAt path session { session with holds } :=
  ⟨rfl, hduration, ⟨rfl, rfl⟩, rfl, hheld⟩

/-- No path is the worse for the holds that have expired. -/
theorem purge (path : Path) (session : Session MemoryStore) :
    AlikeAt path session { session with holds := session.holds.purge session.now } :=
  of_holds rfl fun _ htime => (congrArg Prod.fst (Holds.isHeld_purge htime)).symm

theorem skipReason? (keeper : Keeper) (session : Session MemoryStore) (path asked : Path) :
    AlikeAt path session
      { session with holds := (keeper.skipReason? session.holds session.now asked).2 } := by
  rcases Keeper.snd_skipReason? keeper session.holds session.now asked with h | h
  · rw [h]
    exact refl path session
  · rw [h]
    exact purge path session

/-! ### Processing looks at one path -/

theorem skipReason?_eq (h : AlikeAt path session after) (keeper : Keeper) :
    (keeper.skipReason? after.holds after.now path).1 =
      (keeper.skipReason? session.holds session.now path).1 := by
  have hheld := h.isHeld_eq session.now (Nat.le_refl _)
  rw [← h.now_eq]
  unfold Keeper.skipReason?
  split
  · rfl
  split
  · rfl
  · simp only [hheld]

theorem read_eq (h : AlikeAt path session after) :
    after.store.read path = session.store.read path := by
  simp only [MemoryStore.read, h.refusals.1, h.find?_eq]

end Session.AlikeAt

namespace Processing

/-- Processing a note leaves the session alike at every other path. -/
theorem alikeAt_other (h : Processing keeper session other result)
    (hother : path.components ≠ other.components) : session.AlikeAt path result.2 := by
  have hpurge := Session.AlikeAt.purge path session
  cases h with
  | skipped reason hskip => exact .skipReason? keeper session path other
  | unread | unchanged => exact hpurge
  | unwritten =>
    refine hpurge.trans (.of_holds rfl fun time _ => ?_)
    rw [Holds.isHeld_release_other hother, Holds.isHeld_hold_other hother]
  | updated =>
    refine hpurge.trans ⟨rfl, rfl, ⟨rfl, rfl⟩, ?_, fun time _ => ?_⟩
    · exact (MemoryStore.find?_insert_of_ne (Ne.symm hother)).symm
    · rw [Holds.isHeld_hold_other hother]

/-- What comes of processing a note in a session comes of it in every session that is alike at its
path. -/
theorem of_alikeAt (h : Processing keeper session path result)
    (halike : session.AlikeAt path after) :
    ∃ alike, Processing keeper after path (result.1, alike) ∧ result.2.AlikeAt path alike := by
  have hskips := halike.skipReason?_eq keeper
  have hreads := halike.read_eq
  have hpurge := (Session.AlikeAt.purge path session).symm.trans
    (halike.trans (Session.AlikeAt.purge path after))
  -- The other session takes the same case, as all that a case asks for is alike at the path.
  cases h with
  | skipped reason hskip =>
    refine ⟨_, .skipped reason (hskips.trans hskip), ?_⟩
    exact (Session.AlikeAt.skipReason? keeper session path path).symm.trans
      (halike.trans (Session.AlikeAt.skipReason? keeper after path path))
  | unread cause hskip hread =>
    exact ⟨_, .unread cause (hskips.trans hskip) (hreads.trans hread), hpurge⟩
  | unchanged old hskip hread hsame =>
    exact ⟨_, .unchanged old (hskips.trans hskip) (hreads.trans hread) hsame, hpurge⟩
  | unwritten old hskip hread hnew hrefuses =>
    refine ⟨_, .unwritten old (hskips.trans hskip) (hreads.trans hread) hnew
      (halike.refusals.2.symm.trans hrefuses), ?_⟩
    -- The hold that was taken to write the note is given back in both.
    refine ⟨hpurge.now_eq, hpurge.duration_eq, hpurge.refusals, hpurge.find?_eq, fun time _ => ?_⟩
    rw [Holds.isHeld_release_self, Holds.isHeld_release_self]
  | updated old hskip hread hnew hwrites =>
    refine ⟨_, .updated old (hskips.trans hskip) (hreads.trans hread) hnew
      (halike.refusals.2.symm.trans hwrites), ?_⟩
    refine ⟨hpurge.now_eq, hpurge.duration_eq, hpurge.refusals, ?_, fun time _ => ?_⟩
    · exact MemoryStore.find?_insert_self.trans MemoryStore.find?_insert_self.symm
    · -- The path is held anew, for the same time.
      rw [Bool.eq_iff_iff, Holds.isHeld_hold_self_iff, Holds.isHeld_hold_self_iff, halike.now_eq,
        Holds.duration_purge, Holds.duration_purge, halike.duration_eq]

end Processing

namespace Session

/-- Processing a note leaves the session alike at every other path. -/
theorem alikeAt_step_process (keeper : Keeper) (session : Session MemoryStore)
    (hother : path.components ≠ other.components) :
    session.AlikeAt path (session.step keeper MemoryStore.notesStore (.process other)).2 :=
  (processing_step keeper session other).alikeAt_other hother

/-- Sessions that are alike at a path process the note there alike. -/
theorem AlikeAt.step_process (h : session.AlikeAt path after) (keeper : Keeper) :
    (session.step keeper MemoryStore.notesStore (.process path)).1 =
        (after.step keeper MemoryStore.notesStore (.process path)).1 ∧
      (session.step keeper MemoryStore.notesStore (.process path)).2.AlikeAt path
        (after.step keeper MemoryStore.notesStore (.process path)).2 := by
  obtain ⟨alike, hcase, hafter⟩ := (processing_step keeper session path).of_alikeAt h
  rw [hcase.step_eq]
  exact ⟨rfl, hafter⟩

/-- Two notes leave the session alike at both of their paths and at every other one, in whichever
order they are processed. -/
theorem alikeAt_either_order (keeper : Keeper) (session : Session MemoryStore)
    (hother : path.components ≠ other.components) (asked : Path) :
    let afterPath := (session.step keeper MemoryStore.notesStore (.process path)).2
    let afterOther := (session.step keeper MemoryStore.notesStore (.process other)).2
    (afterPath.step keeper MemoryStore.notesStore (.process other)).2.AlikeAt asked
      (afterOther.step keeper MemoryStore.notesStore (.process path)).2 := by
  intro afterPath afterOther
  by_cases hpath : path.components = asked.components
  · -- The other note is processed last on one side and first on the other.
    have hlast := (alikeAt_step_process keeper afterPath hother).symm
    have hfirst := ((alikeAt_step_process keeper session hother).step_process keeper).2
    exact (hlast.trans hfirst).of_same hpath
  by_cases hasked : other.components = asked.components
  · have hfirst := ((alikeAt_step_process keeper session hother.symm).step_process keeper).2
    have hlast := alikeAt_step_process keeper afterOther hother.symm
    exact (hfirst.symm.trans hlast).of_same hasked
  · have hforth := (alikeAt_step_process keeper session (Ne.symm hpath)).trans
      (alikeAt_step_process keeper afterPath (Ne.symm hasked))
    have hback := (alikeAt_step_process keeper session (Ne.symm hasked)).trans
      (alikeAt_step_process keeper afterOther (Ne.symm hpath))
    exact hforth.symm.trans hback

/-- A note is known by the components of its path, in every session of the memory store and at
every time. -/
theorem knowsByComponents_process (keeper : Keeper) (session : Session MemoryStore)
    (path other : Path) : KnowsByComponents keeper session path other := by
  refine ⟨fun hsame => step_process_of_same (Path.same_iff.mp hsame), fun hapart => ?_⟩
  have hother : path.components ≠ other.components := Path.same_eq_false_iff.mp hapart
  refine ⟨?_, alikeAt_either_order keeper session hother⟩
  have hpath := ((alikeAt_step_process keeper session hother).step_process keeper).1
  have hnext := ((alikeAt_step_process keeper session hother.symm).step_process keeper).1
  simp only [run, List.reverse_cons, List.reverse_nil, List.nil_append, List.singleton_append]
  rw [← hpath, ← hnext]

/-- Where two notes are to be written, another path is held and one hold has expired: a note under
two spellings, and the two notes in either order. -/
theorem knowsByComponents_twoNotes :
    let path : Path := .ofString "notes/a.md"
    let spelled : Path := .ofString "notes//./a.md/"
    let other : Path := .ofString "notes/b.md"
    let store := (({} : MemoryStore).insert path "## One\n## Two").insert other "## Three\n## Four"
    let holds := ((({} : Holds).hold other 0).hold (.ofString "c.md") 400)
    let session : Session MemoryStore := ⟨store, holds, 600⟩
    path.same spelled = true ∧ KnowsByComponents (.ofSettings {}) session path spelled ∧
      path.same other = false ∧ KnowsByComponents (.ofSettings {}) session path other :=
  ⟨by decide +kernel, knowsByComponents_process _ _ _ _, by decide +kernel,
    knowsByComponents_process _ _ _ _⟩

end Session

end Waymark
