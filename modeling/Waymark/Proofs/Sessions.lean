import Mathlib.Tactic.ByContra
import Waymark.Proofs.Holding
import Waymark.Vault.Session

/-!
# Sessions over the memory store

What one step and a run of steps do to the store, the holds and the clock. Only the processing of
a note has cases of its own, and each of them is stated with all that it leaves behind; every
law of a session is read off these cases.

## Main definitions

* `Session.IsHeld` — the path is held in the session
* `Step.releases`, `Step.takesUp` — steps that end a hold of a path, or may begin one
* `Processing` — what comes of processing a note, case by case
* `WriteDiscipline` — a note is written only if it was taken up and is not as it should be

## Main results

* `Session.processing_step` — every processing is one of the cases
* `Session.lasts_run` — a hold lasts through a run in which the path is not released
* `Session.endsBy_run` — a hold ends if the path is not taken up again
* `Session.writeDiscipline_run` — the discipline holds after every run
-/

namespace Waymark

/-- The path is held in the session, at the time of its clock. -/
def Session.IsHeld {σ : Type} (session : Session σ) (path : Path) : Prop :=
  (session.holds.isHeld path session.now).1 = true

/-- The step releases the path, in whatever spelling. -/
def Step.releases {σ : Type} (path : Path) : Step σ → Bool
  | .release other => path.same other
  | _ => false

/-- The step holds the path or may do so, in whatever spelling. -/
def Step.takesUp {σ : Type} (path : Path) : Step σ → Bool
  | .hold other | .process other => path.same other
  | _ => false

/-- What comes of processing a note of the memory store, with what holds then and with the session
that it leaves. -/
inductive Processing (keeper : Keeper) (session : Session MemoryStore) (path : Path) :
    Answer × Session MemoryStore → Prop
  /-- The path is passed over. -/
  | skipped (reason : SkipReason)
      (hskip : (keeper.skipReason? session.holds session.now path).1 = some reason) :
      Processing keeper session path (.outcome (.skipped reason),
        { session with holds := (keeper.skipReason? session.holds session.now path).2 })
  /-- The note cannot be read. -/
  | unread (cause : FileError)
      (hskip : (keeper.skipReason? session.holds session.now path).1 = none)
      (hread : session.store.read path = .error cause) :
      Processing keeper session path (.noteError ⟨path, cause⟩,
        { session with holds := session.holds.purge session.now })
  /-- The note is as it should be. -/
  | unchanged (old : String)
      (hskip : (keeper.skipReason? session.holds session.now path).1 = none)
      (hread : session.store.read path = .ok old) (hsame : keeper.arranged path old = old) :
      Processing keeper session path (.outcome .unchanged,
        { session with holds := session.holds.purge session.now })
  /-- The note cannot be written. -/
  | unwritten (old : String)
      (hskip : (keeper.skipReason? session.holds session.now path).1 = none)
      (hread : session.store.read path = .ok old) (hnew : keeper.arranged path old ≠ old)
      (hrefuses : session.store.refusesWrites = true) :
      Processing keeper session path (.noteError ⟨path, .writeRefused⟩,
        { session with
          holds := ((session.holds.purge session.now).hold path session.now).release path })
  /-- The note is written. -/
  | updated (old : String)
      (hskip : (keeper.skipReason? session.holds session.now path).1 = none)
      (hread : session.store.read path = .ok old) (hnew : keeper.arranged path old ≠ old)
      (hwrites : session.store.refusesWrites = false) :
      Processing keeper session path (.outcome .updated,
        { session with
          store := session.store.insert path (keeper.arranged path old),
          holds := (session.holds.purge session.now).hold path session.now })

/-- A note was written: it was free to be, its text became the arranged one, and that one is
another. -/
structure Rewrites (settings : Settings) (path : Path) (before after : Session MemoryStore) :
    Prop where
  /-- The path names a Markdown file. -/
  markdown : Keeper.isMarkdown path = true
  /-- The path lies in no excluded folder. -/
  included : settings.isExcluded path.vaultText = false
  /-- The path was not held. -/
  free : ¬ before.IsHeld path
  /-- The text of the note was arranged, and was not so before. -/
  arranged : ∃ old, before.store.find? path = some old ∧
    after.store.find? path = some (arrange old path.stem settings.noteOptions) ∧
      arrange old path.stem settings.noteOptions ≠ old
  /-- All other notes have the text that they had. -/
  others : ∀ other, path.same other = false →
    after.store.find? other = before.store.find? other
  /-- The store refuses what it refused. -/
  refusals : after.store.refusesReads = before.store.refusesReads ∧
    after.store.refusesWrites = before.store.refusesWrites

/-- The path is held from the time `since` on, for the time that a hold takes or until it is
released. -/
structure HeldOnwards (keeper : Keeper) (path : Path) (since : Nat)
    (session : Session MemoryStore) : Prop where
  /-- Whatever happens, the path is held up to the end of that time if it is not released. -/
  lasts : ∀ steps : List (Step MemoryStore), (∀ step ∈ steps, step.releases path = false) →
    (session.run keeper MemoryStore.notesStore steps).2.now < since + session.holds.duration →
      (session.run keeper MemoryStore.notesStore steps).2.IsHeld path
  /-- If the path is not taken up again, it is held no longer. -/
  ends : ∀ steps : List (Step MemoryStore), (∀ step ∈ steps, step.takesUp path = false) →
    ((session.run keeper MemoryStore.notesStore steps).2.IsHeld path ↔
      (∀ step ∈ steps, step.releases path = false) ∧
        (session.run keeper MemoryStore.notesStore steps).2.now < since + session.holds.duration)

/-- Processing a note writes it only as it should: `result` is what comes of the call in the session
`before`. -/
structure WriteDiscipline (settings : Settings) (path : Path) (before : Session MemoryStore)
    (result : Answer × Session MemoryStore) : Prop where
  /-- The text of some note changes exactly if the answer says so. -/
  changes : (∃ other, result.2.store.find? other ≠ before.store.find? other) ↔
    result.1 = .outcome .updated
  /-- With any other answer, the store stays as it was in every respect. -/
  untouched : result.1 ≠ .outcome .updated → result.2.store = before.store
  /-- With that answer, the note was free to be written and has its arranged text. -/
  rewrites : result.1 = .outcome .updated → Rewrites settings path before result.2
  /-- With that answer, the path is held for some time. -/
  held : result.1 = .outcome .updated →
    HeldOnwards (.ofSettings settings) path before.now result.2
  /-- The answer that nothing changed is given exactly if the note could be taken up and read and
  is as it should be. -/
  unchanged : result.1 = .outcome .unchanged ↔
    ((Keeper.ofSettings settings).skipReason? before.holds before.now path).1 = none ∧
      ∃ old, before.store.read path = .ok old ∧
        arrange old path.stem settings.noteOptions = old

variable {keeper : Keeper} {settings : Settings} {session : Session MemoryStore}
variable {store : MemoryStore} {holds : Holds} {step : Step MemoryStore}
variable {steps : List (Step MemoryStore)} {path other : Path} {text : String}
variable {now since time : Nat} {result : Answer × Session MemoryStore}

/-! ### The memory store -/

namespace MemoryStore

theorem run_read (store : MemoryStore) (path : Path) :
    (notesStore.read path).run store = pure (store.read path, store) := rfl

theorem run_write (store : MemoryStore) (path : Path) (text : String) :
    (notesStore.write path text).run store = pure (store.write path text) := rfl

theorem find?_insert_self : (store.insert path text).find? path = some text := by
  simp [find?, insert]

theorem find?_insert_of_ne (hother : path.components ≠ other.components) :
    (store.insert path text).find? other = store.find? other := by
  have hkeep : ∀ notes : List (List Component × String),
      (notes.filter fun note => note.1 != path.components).find?
        (fun note => note.1 == other.components) =
          notes.find? fun note => note.1 == other.components := by
    intro notes
    rw [List.find?_filter]
    congr 1
    ext note
    -- A note of the other path is none of those that were filtered out.
    by_cases hnote : note.1 = other.components
    · simp [hnote, hother.symm]
    · simp [hnote]
  simp [find?, insert, hother, hkeep]

theorem find?_of_read_eq_ok (hread : store.read path = .ok text) :
    store.find? path = some text := by
  unfold read at hread
  split at hread
  · cases hread
  · split at hread
    · next found hfound =>
      rw [hfound, Except.ok.inj hread]
    · cases hread

end MemoryStore

/-! ### One step -/

namespace Keeper

/-- The holds after a path was asked for: with the expired ones dropped if it came to that. -/
theorem snd_skipReason? (keeper : Keeper) (holds : Holds) (now : Nat) (path : Path) :
    (keeper.skipReason? holds now path).2 = holds ∨
      (keeper.skipReason? holds now path).2 = holds.purge now := by
  unfold skipReason?
  split
  · exact .inl rfl
  split
  · exact .inl rfl
  · exact .inr rfl

theorem skipReason?_eq_none_iff : (keeper.skipReason? holds now path).1 = none ↔
    isMarkdown path = true ∧ keeper.settings.isExcluded path.vaultText = false ∧
      (holds.isHeld path now).1 = false := by
  unfold skipReason?
  by_cases hmarkdown : isMarkdown path = true
  · by_cases hexcluded : keeper.settings.isExcluded path.vaultText = true
    · simp [hmarkdown, hexcluded]
    · simp [hmarkdown, hexcluded]
  · simp [hmarkdown]

@[simp] theorem duration_snd_skipReason? :
    (keeper.skipReason? holds now path).2.duration = holds.duration := by
  rcases snd_skipReason? keeper holds now path with h | h
  · rw [h]
  · rw [h, Holds.duration_purge]

theorem snd_skipReason?_of_eq_none (h : (keeper.skipReason? holds now path).1 = none) :
    (keeper.skipReason? holds now path).2 = holds.purge now := by
  obtain ⟨hmarkdown, hincluded, -⟩ := skipReason?_eq_none_iff.mp h
  simp [skipReason?, hmarkdown, hincluded, Holds.isHeld]

end Keeper

namespace Processing

/-- What a case says is what comes of processing the path. -/
theorem step_eq (h : Processing keeper session path result) :
    session.step keeper MemoryStore.notesStore (.process path) = result := by
  have hpair : ∀ {reason? : Option SkipReason},
      (keeper.skipReason? session.holds session.now path).1 = reason? →
        keeper.skipReason? session.holds session.now path =
          (reason?, (keeper.skipReason? session.holds session.now path).2) :=
    fun hfst => Prod.ext hfst rfl
  cases h with
  | skipped reason hskip =>
    rw [Session.step, Keeper.process, hpair hskip]
    rfl
  | unread cause hskip hread =>
    rw [Session.step, Keeper.process, hpair hskip, Keeper.snd_skipReason?_of_eq_none hskip]
    simp only [StateT.run_bind, MemoryStore.run_read, pure_bind, hread, StateT.run_pure]
    rfl
  | unchanged old hskip hread hsame =>
    rw [Session.step, Keeper.process, hpair hskip, Keeper.snd_skipReason?_of_eq_none hskip]
    simp only [StateT.run_bind, MemoryStore.run_read, pure_bind, hread, if_pos hsame,
      StateT.run_pure]
    rfl
  | unwritten old hskip hread hnew hrefuses =>
    rw [Session.step, Keeper.process, hpair hskip, Keeper.snd_skipReason?_of_eq_none hskip]
    simp only [StateT.run_bind, MemoryStore.run_read, pure_bind, hread, if_neg hnew,
      MemoryStore.run_write, MemoryStore.write, hrefuses, if_true, StateT.run_pure]
    rfl
  | updated old hskip hread hnew hwrites =>
    rw [Session.step, Keeper.process, hpair hskip, Keeper.snd_skipReason?_of_eq_none hskip]
    simp only [StateT.run_bind, MemoryStore.run_read, pure_bind, hread, if_neg hnew,
      MemoryStore.run_write, MemoryStore.write, hwrites]
    rfl

end Processing

namespace Session

/-- Every processing of a note is one of the cases. -/
theorem processing_step (keeper : Keeper) (session : Session MemoryStore) (path : Path) :
    Processing keeper session path
      (session.step keeper MemoryStore.notesStore (.process path)) := by
  suffices h : ∃ result, Processing keeper session path result by
    obtain ⟨result, h⟩ := h
    rwa [h.step_eq]
  cases hskip : (keeper.skipReason? session.holds session.now path).1 with
  | some reason => exact ⟨_, .skipped reason hskip⟩
  | none =>
    -- The path is taken up: what comes of it is told by the store and by the text of the note.
    cases hread : session.store.read path with
    | error cause => exact ⟨_, .unread cause hskip hread⟩
    | ok old =>
      by_cases hnew : keeper.arranged path old = old
      · exact ⟨_, .unchanged old hskip hread hnew⟩
      · cases hrefuses : session.store.refusesWrites with
        | true => exact ⟨_, .unwritten old hskip hread hnew hrefuses⟩
        | false => exact ⟨_, .updated old hskip hread hnew hrefuses⟩

end Session

namespace Processing

theorem now_eq (h : Processing keeper session path result) : result.2.now = session.now := by
  cases h <;> rfl

theorem duration_eq (h : Processing keeper session path result) :
    result.2.holds.duration = session.holds.duration := by
  cases h with
  | skipped => exact Keeper.duration_snd_skipReason?
  | _ => rfl

/-- A hold that has not expired outlives the processing of whatever note. That of the path itself
is passed over, so it cannot end the hold by failing to write. -/
theorem lasts (h : Processing keeper session other result) (hlasts : session.holds.Lasts path time)
    (hnow : session.now < time) (hlate : time ≤ session.now + session.holds.duration) :
    result.2.holds.Lasts path time := by
  have hpurge := hlasts.purge hnow
  cases h with
  | skipped reason hskip =>
    rcases Keeper.snd_skipReason? keeper session.holds session.now other with h | h
    · simpa only [h] using hlasts
    · simpa only [h] using hpurge
  | unread | unchanged => exact hpurge
  | unwritten old hskip =>
    -- The path would be released, but a path that is held is passed over.
    by_cases hsame : path.components = other.components
    · obtain ⟨-, -, hfree⟩ := Keeper.skipReason?_eq_none_iff.mp hskip
      have hheld := (hlasts.of_same hsame).isHeld hnow
      rw [hfree] at hheld
      cases hheld
    · exact (hpurge.hold hlate).release hsame
  | updated => exact hpurge.hold hlate

/-- The processing of another note gives the path no hold. -/
theorem endsBy (h : Processing keeper session other result)
    (hends : session.holds.EndsBy path time) (hother : path.components ≠ other.components) :
    result.2.holds.EndsBy path time := by
  cases h with
  | skipped reason hskip =>
    rcases Keeper.snd_skipReason? keeper session.holds session.now other with h | h
    · simpa only [h] using hends
    · simpa only [h] using hends.purge
  | unread | unchanged => exact hends.purge
  | unwritten => exact (hends.purge.hold_other hother).release
  | updated => exact hends.purge.hold_other hother

end Processing

namespace Session

theorem now_le_step : session.now ≤ (session.step keeper MemoryStore.notesStore step).2.now := by
  cases step with
  | process path => exact Nat.le_of_eq (processing_step keeper session path).now_eq.symm
  | wait milliseconds => exact Nat.le_add_right _ _
  | _ => exact Nat.le_refl _

theorem duration_step :
    (session.step keeper MemoryStore.notesStore step).2.holds.duration =
      session.holds.duration := by
  cases step with
  | process path => exact (processing_step keeper session path).duration_eq
  | _ => rfl

/-- A hold that has not expired outlives every step but the release of its path. -/
theorem lasts_step (hlasts : session.holds.Lasts path time) (hnow : session.now < time)
    (hlate : time ≤ session.now + session.holds.duration) (hstep : step.releases path = false) :
    (session.step keeper MemoryStore.notesStore step).2.holds.Lasts path time := by
  cases step with
  | process other => exact (processing_step keeper session other).lasts hlasts hnow hlate
  | hold other => exact hlasts.hold hlate
  | release other => exact hlasts.release (Path.same_eq_false_iff.mp hstep)
  | isHeld other => exact hlasts.purge hnow
  | _ => exact hlasts

/-- A path that a step does not take up is held no longer than before. -/
theorem endsBy_step (hends : session.holds.EndsBy path time) (hstep : step.takesUp path = false) :
    (session.step keeper MemoryStore.notesStore step).2.holds.EndsBy path time := by
  cases step with
  | process other =>
    exact (processing_step keeper session other).endsBy hends (Path.same_eq_false_iff.mp hstep)
  | hold other => exact hends.hold_other (Path.same_eq_false_iff.mp hstep)
  | release other => exact hends.release
  | isHeld other => exact hends.purge
  | _ => exact hends

/-! ### A run of steps -/

theorem now_le_run : session.now ≤ (session.run keeper MemoryStore.notesStore steps).2.now := by
  induction steps generalizing session with
  | nil => exact Nat.le_refl _
  | cons first rest ih => exact Nat.le_trans now_le_step ih

/-- A hold lasts through a run that ends before its time is over and releases the path nowhere. -/
theorem lasts_run (hlasts : session.holds.Lasts path time)
    (hlate : time ≤ session.now + session.holds.duration)
    (hsteps : ∀ step ∈ steps, step.releases path = false)
    (hnow : (session.run keeper MemoryStore.notesStore steps).2.now < time) :
    (session.run keeper MemoryStore.notesStore steps).2.holds.Lasts path time := by
  induction steps generalizing session with
  | nil => exact hlasts
  | cons first rest ih =>
    rw [List.forall_mem_cons] at hsteps
    -- The clock does not go back, so the hold has not expired at the first step either.
    have hfirst : session.now < time := Nat.lt_of_le_of_lt now_le_run hnow
    have hclock : session.now ≤ (session.step keeper MemoryStore.notesStore first).2.now :=
      now_le_step
    have hlater : time ≤ (session.step keeper MemoryStore.notesStore first).2.now +
        (session.step keeper MemoryStore.notesStore first).2.holds.duration := by
      rw [duration_step]
      omega
    exact ih (lasts_step hlasts hfirst hlate hsteps.1) hlater hsteps.2 hnow

theorem endsBy_run (hends : session.holds.EndsBy path time)
    (hsteps : ∀ step ∈ steps, step.takesUp path = false) :
    (session.run keeper MemoryStore.notesStore steps).2.holds.EndsBy path time := by
  induction steps generalizing session with
  | nil => exact hends
  | cons first rest ih =>
    rw [List.forall_mem_cons] at hsteps
    exact ih (endsBy_step hends hsteps.1) hsteps.2

/-- A path that was released in a run and is not taken up has no hold afterwards. -/
theorem endsBy_run_of_releases (hsteps : ∀ step ∈ steps, step.takesUp path = false)
    (hreleases : ∃ step ∈ steps, step.releases path = true) :
    (session.run keeper MemoryStore.notesStore steps).2.holds.EndsBy path 0 := by
  induction steps generalizing session with
  | nil =>
    obtain ⟨step, hmem, -⟩ := hreleases
    cases hmem
  | cons first rest ih =>
    rw [List.forall_mem_cons] at hsteps
    obtain ⟨step, hmem, hrelease⟩ := hreleases
    rcases List.mem_cons.mp hmem with rfl | hrest
    · cases step with
      | release other =>
        let after : Session MemoryStore := { session with holds := session.holds.release other }
        have hreleased : after.holds.EndsBy path 0 :=
          Holds.endsBy_release.of_same (Path.same_iff.mp hrelease).symm
        have hrest : (after.run keeper MemoryStore.notesStore rest).2.holds.EndsBy path 0 :=
          endsBy_run hreleased hsteps.2
        exact hrest
      | _ => cases hrelease
    · exact ih hsteps.2 ⟨step, hrest, hrelease⟩

/-- A hold that began before lasts for its duration, or until it is released. -/
theorem heldOnwards (hsince : since ≤ session.now)
    (hlasts : session.holds.Lasts path (since + session.holds.duration))
    (hends : session.holds.EndsBy path (since + session.holds.duration)) :
    HeldOnwards keeper path since session where
  lasts steps hsteps hnow :=
    (lasts_run hlasts (Nat.add_le_add_right hsince _) hsteps hnow).isHeld hnow
  ends steps hsteps := by
    constructor
    · intro hheld
      constructor
      · intro step hmem
        by_contra hreleases
        have hnone : (session.run keeper MemoryStore.notesStore steps).2.holds.EndsBy path 0 :=
          endsBy_run_of_releases hsteps ⟨step, hmem, by simpa using hreleases⟩
        exact hnone.not_isHeld (Nat.zero_le _) hheld
      · by_contra hlate
        exact (endsBy_run hends hsteps).not_isHeld (Nat.not_lt.mp hlate) hheld
    · rintro ⟨hreleases, hnow⟩
      exact (lasts_run hlasts (Nat.add_le_add_right hsince _) hreleases hnow).isHeld hnow

end Session

/-! ### The discipline -/

namespace Processing

/-- A note that is read and arranged and can be written is written as it should be. -/
theorem rewrites (h : Processing (.ofSettings settings) session path result)
    (hupdated : result.1 = .outcome .updated) : Rewrites settings path session result.2 := by
  cases h with
  | updated old hskip hread hnew hwrites =>
    obtain ⟨hmarkdown, hincluded, hfree⟩ := Keeper.skipReason?_eq_none_iff.mp hskip
    exact {
      markdown := hmarkdown
      included := hincluded
      free := by simp [Session.IsHeld, hfree]
      arranged := ⟨old, MemoryStore.find?_of_read_eq_ok hread, MemoryStore.find?_insert_self, hnew⟩
      others := fun other hother =>
        MemoryStore.find?_insert_of_ne (Path.same_eq_false_iff.mp hother)
      refusals := ⟨rfl, rfl⟩ }
  | _ => cases hupdated

theorem store_eq (h : Processing keeper session path result)
    (hnot : result.1 ≠ .outcome .updated) : result.2.store = session.store := by
  cases h with
  | updated => exact absurd rfl hnot
  | _ => rfl

theorem heldOnwards (h : Processing keeper session path result)
    (hupdated : result.1 = .outcome .updated) :
    HeldOnwards keeper path session.now result.2 := by
  cases h with
  | updated =>
    exact Session.heldOnwards (Nat.le_refl _) (Holds.lasts_hold _ _ _) (Holds.endsBy_hold _ _ _)
  | _ => cases hupdated

theorem unchanged_iff (h : Processing keeper session path result) :
    result.1 = .outcome .unchanged ↔
      (keeper.skipReason? session.holds session.now path).1 = none ∧
        ∃ old, session.store.read path = .ok old ∧ keeper.arranged path old = old := by
  cases h with
  | skipped reason hskip => simp [hskip]
  | unread cause hskip hread => simp [hread]
  | unchanged old hskip hread hsame => simp [hskip, hread, hsame]
  | unwritten old hskip hread hnew => simp [hread, hnew]
  | updated old hskip hread hnew => simp [hread, hnew]

end Processing

/-- After every run of a session, from whatever store, holds and clock it started, a note is
written only under the discipline. -/
theorem Session.writeDiscipline_run (settings : Settings) (start : Session MemoryStore)
    (steps : List (Step MemoryStore)) (path : Path) :
    let keeper := Keeper.ofSettings settings
    let before := (start.run keeper MemoryStore.notesStore steps).2
    WriteDiscipline settings path before
      (before.step keeper MemoryStore.notesStore (.process path)) := by
  intro keeper before
  have hcase : Processing keeper before path
      (before.step keeper MemoryStore.notesStore (.process path)) := processing_step ..
  refine ⟨⟨?_, ?_⟩, hcase.store_eq, hcase.rewrites, hcase.heldOnwards, hcase.unchanged_iff⟩
  · rintro ⟨other, hchange⟩
    by_contra hnot
    rw [hcase.store_eq hnot] at hchange
    exact hchange rfl
  · intro hupdated
    obtain ⟨old, hold, hnew, hne⟩ := (hcase.rewrites hupdated).arranged
    refine ⟨path, ?_⟩
    rw [hold, hnew]
    exact fun h => hne (Option.some.inj h)

end Waymark
