import Waymark.Proofs.Failures
import Waymark.Proofs.Spellings

/-!
# What a hold suppresses

A path is held after one's own writing, so that the change it causes is not taken up again. The
hold knows the path and its deadline, and nothing of the text. So it passes over the path for the
whole of its time, whoever has written the note since: an edit of someone else that arrives in
this time is not taken up before the hold has ended.

The history of a run tells who wrote the note, and when. It is not part of the session.

## Main definitions

* `Writing`, `Session.history` — what was written to a note in a run, and by whom
* `Step.IsOrdinary` — steps that hold and release no path and change the notes by writing only
* `Session.SuppressesOwnOnly` — a path that is passed over as held has the text of the last own
  writing

## Main results

* `Session.accounts_run` — the history accounts for the holds and the note, after every run
* `Session.not_suppressesOwnOnly_foreignEdit` — an edit of someone else can be passed over
* `Session.skipped_held_iff_ownWriting` — a path is passed over as held exactly for the time of a
  hold after the last own writing, and a note has the text that was written last
-/

namespace Waymark

/-- A writing of a note. -/
structure Writing where
  /-- The note was written by being processed, not by someone else. -/
  isOwn : Bool
  /-- When the note was written. -/
  time : Nat
  /-- The text that it was given. -/
  text : String
  deriving DecidableEq, Repr

/-- The last own writing in a history. -/
def lastOwn? (history : List Writing) : Option Writing :=
  (history.filter (·.isOwn)).getLast?

/-- The step holds and releases no path, unless processing does, and changes the text of a note by
writing it only. Reading, waiting, and a store that begins or ceases to refuse are such steps. -/
def Step.IsOrdinary : Step MemoryStore → Prop
  | .hold _ | .release _ => False
  | .change alter => ∀ store, (alter store).notes = store.notes
  | _ => True

/-- The writing of the note at the path in a step at the time `now`, in whatever spelling of the
path: `result` is what comes of the step. There is none if the step fails, or writes another note,
or none at all. -/
def Step.writing? (path : Path) (now : Nat) (result : Answer × Session MemoryStore) :
    Step MemoryStore → Option Writing
  | .process other =>
    if path.same other ∧ result.1 = .outcome .updated then
      (result.2.store.find? path).map (⟨true, now, ·⟩)
    else none
  | .write other text =>
    if path.same other ∧ result.1 = .done then some ⟨false, now, text⟩ else none
  | _ => none

namespace Session

/-- The writings of the note at the path in a run of steps, the first one first. -/
def history (keeper : Keeper) (session : Session MemoryStore) (path : Path) :
    List (Step MemoryStore) → List Writing
  | [] => []
  | first :: rest =>
    let result := session.step keeper MemoryStore.notesStore first
    (first.writing? path session.now result).toList ++ result.2.history keeper path rest

/-- If the path is passed over as held after the steps, then the note has the text of the last own
writing. -/
def SuppressesOwnOnly (keeper : Keeper) (start : Session MemoryStore)
    (steps : List (Step MemoryStore)) (path : Path) : Prop :=
  let before := (start.run keeper MemoryStore.notesStore steps).2
  (before.step keeper MemoryStore.notesStore (.process path)).1 = .outcome (.skipped .held) →
    ∃ own, lastOwn? (start.history keeper path steps) = some own ∧
      before.store.find? path = some own.text

/-- The history accounts for what the session knows of the path: it is held for the time of a hold
after the last own writing, and the note has the text that was written last. -/
structure Accounts (keeper : Keeper) (history : List Writing) (session : Session MemoryStore)
    (path : Path) : Prop where
  /-- From now on, the path is held while the last own writing holds it. -/
  held_iff : ∀ time, session.now ≤ time → ((session.holds.isHeld path time).1 = true ↔
    ∃ own, lastOwn? history = some own ∧ time < own.time + session.holds.duration)
  /-- The note has the text of the last writing. -/
  stored : ∀ last, history.getLast? = some last → session.store.find? path = some last.text
  /-- A path with an own writing is one that is taken up where nothing holds it. -/
  takenUp : ∀ writing ∈ history, writing.isOwn = true →
    Keeper.isMarkdown path = true ∧ keeper.settings.isExcluded path.vaultText = false

end Session

variable {keeper : Keeper} {settings : Settings} {session : Session MemoryStore}
variable {step : Step MemoryStore} {steps : List (Step MemoryStore)} {path other : Path}
variable {history : List Writing} {writing : Writing} {holds : Holds} {now time : Nat}
variable {result : Answer × Session MemoryStore} {text : String}

/-! ### Histories -/

theorem lastOwn?_concat_own (hown : writing.isOwn = true) :
    lastOwn? (history ++ [writing]) = some writing := by
  simp [lastOwn?, List.filter_append, hown]

theorem lastOwn?_concat_foreign (hforeign : writing.isOwn = false) :
    lastOwn? (history ++ [writing]) = lastOwn? history := by
  simp [lastOwn?, List.filter_append, hforeign]

/-- A history is cut at its last own writing: none behind it is one's own. -/
theorem exists_of_lastOwn? {own : Writing} (hlast : lastOwn? history = some own) :
    ∃ earlier later, history = earlier ++ own :: later ∧ own.isOwn = true ∧
      ∀ writing ∈ later, writing.isOwn = false := by
  -- The own writings are cut before the last one, and so is the history they are taken from.
  obtain ⟨front, hfront⟩ := List.getLast?_eq_some_iff.mp hlast
  obtain ⟨earlier, rest, rfl, -, hrest⟩ := List.filter_eq_append_iff.mp hfront
  obtain ⟨between, later, rfl, -, hown, hnone⟩ := List.filter_eq_cons_iff.mp hrest
  refine ⟨earlier ++ between, later, by simp, hown, fun writing hmem => ?_⟩
  simpa using List.filter_eq_nil_iff.mp hnone writing hmem

theorem lastOwn?_append_cons {earlier later : List Writing} {own : Writing}
    (hown : own.isOwn = true) (hlater : ∀ writing ∈ later, writing.isOwn = false) :
    lastOwn? (earlier ++ own :: later) = some own := by
  have hnone : later.filter (·.isOwn) = [] :=
    List.filter_eq_nil_iff.mpr fun writing hmem => by simp [hlater writing hmem]
  simp [lastOwn?, List.filter_append, hown, hnone]

/-! ### What a history accounts for -/

namespace Session.Accounts

/-- Nothing was written before the first step. -/
theorem of_no_holds (hnone : session.holds.deadlines = []) : Accounts keeper [] session path where
  held_iff time _ := by simp [Holds.isHeld_fst_iff, hnone, lastOwn?]
  stored last hlast := by cases hlast
  takenUp writing hmem := by cases hmem

/-- Without a writing, the account stays right if the path is held as before and the note stays as
it is. -/
theorem of_unwritten {after : Session MemoryStore} (h : Accounts keeper history session path)
    (hnow : session.now ≤ after.now) (hduration : after.holds.duration = session.holds.duration)
    (hheld : ∀ time, after.now ≤ time →
      (after.holds.isHeld path time).1 = (session.holds.isHeld path time).1)
    (hstored : after.store.find? path = session.store.find? path) :
    Accounts keeper history after path where
  held_iff time htime := by
    rw [hheld time htime, hduration]
    exact h.held_iff time (Nat.le_trans hnow htime)
  stored last hlast := by rw [hstored]; exact h.stored last hlast
  takenUp := h.takenUp

/-- An account on which expired holds are dropped stays right. -/
theorem purge (h : Accounts keeper history session path) :
    Accounts keeper history { session with holds := session.holds.purge session.now } path :=
  h.of_unwritten (Nat.le_refl _) rfl (fun _ htime => by rw [Holds.isHeld_purge htime]) rfl

/-- Where a step writes nothing, nothing is added to the history. -/
theorem append_none {writing? : Option Writing} (h : Accounts keeper history session path)
    (hnone : writing? = none) : Accounts keeper (history ++ writing?.toList) session path := by
  rwa [hnone, Option.toList_none, List.append_nil]

/-- An own writing begins a hold of its own, which takes the place of the one before. -/
theorem of_processing (h : Accounts keeper history session path)
    (hcase : Processing keeper session other result) :
    Accounts keeper (history ++ (Step.writing? path session.now result (.process other)).toList)
      result.2 path := by
  cases hcase with
  | skipped reason hskip =>
    refine append_none ?_ (if_neg (by simp))
    rcases Keeper.snd_skipReason? keeper session.holds session.now other with hsame | hpurged
    · simpa only [hsame] using h
    · simpa only [hpurged] using h.purge
  | unread | unchanged => exact h.purge.append_none (if_neg (by simp))
  | unwritten old hskip =>
    obtain ⟨-, -, hfree⟩ := Keeper.skipReason?_eq_none_iff.mp hskip
    rw [Holds.release_hold, Holds.release_purge hfree]
    exact h.purge.append_none (if_neg (by simp))
  | updated old hskip hread hnew hwrites =>
    -- It is a writing of the path, perhaps under another spelling, or of another note.
    by_cases hsame : path.components = other.components
    · have hfound : (session.store.insert other (keeper.arranged other old)).find? path = _ :=
        MemoryStore.find?_insert_of_same hsame
      rw [Step.writing?, if_pos ⟨Path.same_iff.mpr hsame, rfl⟩, hfound]
      obtain ⟨hmarkdown, hincluded, -⟩ := Keeper.skipReason?_eq_none_iff.mp hskip
      refine ⟨fun time _ => ?_, fun last hlast => ?_, fun _ _ _ => ?_⟩
      · rw [Holds.hold_of_same hsame.symm, Holds.isHeld_hold_self_iff]
        simp [lastOwn?_concat_own, Holds.hold, Holds.purge]
      · obtain rfl : _ = last := by simpa using hlast
        exact hfound
      · rw [Keeper.isMarkdown_of_same hsame, Path.vaultText_of_same hsame]
        exact ⟨hmarkdown, hincluded⟩
    · refine append_none (h.purge.of_unwritten (Nat.le_refl _) rfl (fun time _ => ?_) ?_)
        (if_neg (by simp [Path.same_iff, hsame]))
      · exact Holds.isHeld_hold_other hsame
      · exact MemoryStore.find?_insert_of_ne (Ne.symm hsame)

end Session.Accounts

namespace Session

theorem step_write_of_refuses (hrefuses : session.store.refusesWrites = true) :
    session.step keeper MemoryStore.notesStore (.write other text) =
      (.fileError .writeRefused, session) := by
  simp only [Session.step, MemoryStore.run_write, MemoryStore.write, if_pos hrefuses]
  rfl

theorem step_write_of_accepts (haccepts : session.store.refusesWrites = false) :
    session.step keeper MemoryStore.notesStore (.write other text) =
      (.done, { session with store := session.store.insert other text }) := by
  have hnot : ¬ session.store.refusesWrites = true := by simp [haccepts]
  simp only [Session.step, MemoryStore.run_write, MemoryStore.write, if_neg hnot]
  rfl

/-- A writing of someone else takes no hold and ends none. -/
theorem accounts_write (h : Accounts keeper history session path) :
    Accounts keeper
      (history ++ (Step.writing? path session.now
        (session.step keeper MemoryStore.notesStore (.write other text))
        (.write other text)).toList)
      (session.step keeper MemoryStore.notesStore (.write other text)).2 path := by
  cases hrefuses : session.store.refusesWrites with
  | true =>
    rw [step_write_of_refuses hrefuses]
    exact h.append_none (if_neg (by simp))
  | false =>
    rw [step_write_of_accepts hrefuses]
    by_cases hsame : path.components = other.components
    -- The text is new, but the last own writing is the one that it was.
    · rw [Step.writing?, if_pos ⟨Path.same_iff.mpr hsame, rfl⟩]
      refine ⟨fun time htime => ?_, fun last hlast => ?_, fun writing hmem hown => ?_⟩
      · rw [Option.toList_some, lastOwn?_concat_foreign rfl]
        exact h.held_iff time htime
      · obtain rfl : _ = last := by simpa using hlast
        exact MemoryStore.find?_insert_of_same hsame
      · rcases List.mem_append.mp hmem with hmem | hmem
        · exact h.takenUp writing hmem hown
        · obtain rfl : writing = _ := by simpa using hmem
          cases hown
    · refine Accounts.append_none ?_ (if_neg (by simp [Path.same_iff, hsame]))
      exact h.of_unwritten (Nat.le_refl _) rfl (fun _ _ => rfl)
        (MemoryStore.find?_insert_of_ne (Ne.symm hsame))

/-- Every ordinary step keeps the account right. -/
theorem accounts_step (h : Accounts keeper history session path) (hstep : step.IsOrdinary) :
    Accounts keeper (history ++ (step.writing? path session.now
        (session.step keeper MemoryStore.notesStore step)).toList)
      (session.step keeper MemoryStore.notesStore step).2 path := by
  cases step with
  | process other => exact h.of_processing (processing_step keeper session other)
  | write other text => exact accounts_write h
  | hold other => exact hstep.elim
  | release other => exact hstep.elim
  | read other => exact h.append_none rfl
  | change alter =>
    refine Accounts.append_none (h.of_unwritten (Nat.le_refl _) rfl (fun _ _ => rfl) ?_) rfl
    show (alter session.store).find? path = _
    rw [MemoryStore.find?, hstep session.store, MemoryStore.find?]
  | isHeld other => exact h.purge.append_none rfl
  | wait milliseconds =>
    refine Accounts.append_none (h.of_unwritten ?_ rfl (fun _ _ => rfl) rfl) rfl
    exact Nat.le_add_right _ _

/-- And so does every run of ordinary steps. -/
theorem accounts_run (h : Accounts keeper history session path)
    (hsteps : ∀ step ∈ steps, step.IsOrdinary) :
    Accounts keeper (history ++ session.history keeper path steps)
      (session.run keeper MemoryStore.notesStore steps).2 path := by
  induction steps generalizing session history with
  | nil =>
    rw [Session.history, List.append_nil]
    exact h
  | cons first rest ih =>
    rw [List.forall_mem_cons] at hsteps
    have hrest := ih (accounts_step h hsteps.1) hsteps.2
    rwa [List.append_assoc] at hrest

end Session

/-! ### Paths that are passed over -/

theorem Keeper.skipReason?_eq_held_iff :
    (keeper.skipReason? holds now path).1 = some .held ↔
      isMarkdown path = true ∧ keeper.settings.isExcluded path.vaultText = false ∧
        (holds.isHeld path now).1 = true := by
  unfold skipReason?
  by_cases hmarkdown : isMarkdown path = true
  · by_cases hexcluded : keeper.settings.isExcluded path.vaultText = true
    · simp [hmarkdown, hexcluded]
    · simp [hmarkdown, hexcluded]
  · simp [hmarkdown]

theorem Session.skipped_held_iff :
    (session.step keeper MemoryStore.notesStore (.process path)).1 = .outcome (.skipped .held) ↔
      (keeper.skipReason? session.holds session.now path).1 = some .held := by
  have hcase := processing_step keeper session path
  generalize session.step keeper MemoryStore.notesStore (.process path) = result at hcase
  cases hcase with
  | skipped reason hskip => simp [hskip]
  | unread cause hskip => simp [hskip]
  | unchanged old hskip => simp [hskip]
  | unwritten old hskip => simp [hskip]
  | updated old hskip => simp [hskip]

theorem Session.duration_run :
    (session.run keeper MemoryStore.notesStore steps).2.holds.duration =
      session.holds.duration := by
  induction steps generalizing session with
  | nil => rfl
  | cons first rest ih => exact ih.trans duration_step

/-- A path can be passed over as held with a text that is not one's own: someone else has written
the note within the time of the hold. -/
theorem Session.not_suppressesOwnOnly_foreignEdit :
    let path : Path := .ofString "a.md"
    let start : Session MemoryStore := { store := ({} : MemoryStore).insert path "## One\n## Two" }
    let steps : List (Step MemoryStore) := [.process path, .write path "## Three\n## Four"]
    start.holds.deadlines = [] ∧ (∀ step ∈ steps, step.IsOrdinary) ∧
      ¬ SuppressesOwnOnly (.ofSettings {}) start steps path := by
  intro path start steps
  refine ⟨rfl, by simp [steps, Step.IsOrdinary], fun h => ?_⟩
  have hother : (start.run (.ofSettings {}) MemoryStore.notesStore steps).2.store.find? path ≠
      (lastOwn? (start.history (.ofSettings {}) path steps)).map (·.text) := by decide +kernel
  obtain ⟨own, hown, hstored⟩ := h (by decide +kernel)
  rw [hown, hstored] at hother
  exact hother rfl

/-- In every run of ordinary steps, the path is passed over as held exactly if the note was written
by being processed less than the time of a hold ago, whoever has written it since. The note has the
text of its last writing, held or not. -/
theorem Session.skipped_held_iff_ownWriting (settings : Settings) (start : Session MemoryStore)
    (steps : List (Step MemoryStore)) (path : Path) (hstart : start.holds.deadlines = [])
    (hsteps : ∀ step ∈ steps, step.IsOrdinary) :
    let keeper := Keeper.ofSettings settings
    let before := (start.run keeper MemoryStore.notesStore steps).2
    let history := start.history keeper path steps
    ((before.step keeper MemoryStore.notesStore (.process path)).1 = .outcome (.skipped .held) ↔
      ∃ earlier own later, history = earlier ++ own :: later ∧ own.isOwn = true ∧
        (∀ writing ∈ later, writing.isOwn = false) ∧
        before.now < own.time + start.holds.duration) ∧
    ∀ last, history.getLast? = some last → before.store.find? path = some last.text := by
  intro keeper before history
  have haccounts : Accounts keeper history before path :=
    accounts_run (Accounts.of_no_holds hstart) hsteps
  have hduration : before.holds.duration = start.holds.duration := duration_run
  refine ⟨?_, haccounts.stored⟩
  rw [skipped_held_iff, Keeper.skipReason?_eq_held_iff,
    haccounts.held_iff before.now (Nat.le_refl _), hduration]
  constructor
  · rintro ⟨-, -, own, hlast, htime⟩
    obtain ⟨earlier, later, hhistory, hown, hlater⟩ := exists_of_lastOwn? hlast
    exact ⟨earlier, own, later, hhistory, hown, hlater, htime⟩
  · rintro ⟨earlier, own, later, hhistory, hown, hlater, htime⟩
    obtain ⟨hmarkdown, hincluded⟩ := haccounts.takenUp own (by simp [hhistory]) hown
    refine ⟨hmarkdown, hincluded, own, ?_, htime⟩
    rw [hhistory, lastOwn?_append_cons hown hlater]

/-- Where a note is written, edited by someone else under another spelling of its path while the
store refuses to be read, and then processed again within the time of the hold. -/
theorem Session.skipped_held_editedNote :
    let path : Path := .ofString "notes/a.md"
    let start : Session MemoryStore := { store := ({} : MemoryStore).insert path "## One\n## Two" }
    let steps : List (Step MemoryStore) :=
      [.write (.ofString "b.md") "# B", .process path, .wait 100, .change (·.refuse true false),
        .write (.ofString "notes//a.md") "## Three\n## Four", .wait 399]
    let keeper := Keeper.ofSettings {}
    let before := (start.run keeper MemoryStore.notesStore steps).2
    let history := start.history keeper path steps
    start.holds.deadlines = [] ∧ (∀ step ∈ steps, step.IsOrdinary) ∧
      (before.step keeper MemoryStore.notesStore (.process path)).1 = .outcome (.skipped .held) ∧
      (∃ earlier own later, history = earlier ++ own :: later ∧ own.isOwn = true ∧
        (∀ writing ∈ later, writing.isOwn = false) ∧
        before.now < own.time + start.holds.duration) ∧
      history.getLast? = some ⟨false, 100, "## Three\n## Four"⟩ ∧
      before.store.find? path = some "## Three\n## Four" := by
  intro path start steps keeper before history
  have hordinary : ∀ step ∈ steps, step.IsOrdinary := by
    simp [steps, Step.IsOrdinary, MemoryStore.refuse]
  have hskipped : (before.step keeper MemoryStore.notesStore (.process path)).1 =
      .outcome (.skipped .held) := by decide +kernel
  have hlast : history.getLast? = some ⟨false, 100, "## Three\n## Four"⟩ := by decide +kernel
  obtain ⟨hheld, hstored⟩ := Session.skipped_held_iff_ownWriting {} start steps path rfl hordinary
  exact ⟨rfl, hordinary, hskipped, hheld.mp hskipped, hlast, hstored _ hlast⟩

end Waymark
