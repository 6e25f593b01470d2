import Waymark.Proofs.Sessions

/-!
# Spellings of a path

Whatever is read off a path is read off its components: whether it names a Markdown file, its form
for the excluded folders, the note and the hold that it stands for, and the title that a note
without one is given. So processing a note does the same under every spelling of its path. Only an
error shows how the path was spelled.

## Main definitions

* `Answer.shownAs` — an answer with another path in its error

## Main results

* `Keeper.skipReason?_of_same`, `Keeper.arranged_of_same` — what a keeper makes of a path
* `Session.step_process_of_same` — processing a note under another spelling of its path
-/

namespace Waymark

/-- The answer with the given path shown in its error, if it is one of processing a note. -/
def Answer.shownAs (path : Path) : Answer → Answer
  | .noteError error => .noteError { error with path }
  | answer => answer

variable {keeper : Keeper} {session : Session MemoryStore} {store : MemoryStore} {holds : Holds}
variable {path other : Path} {now : Nat} {text : String} {result : Answer × Session MemoryStore}

/-! ### What is read off a path -/

namespace Path

theorem vaultText_of_same (hsame : path.components = other.components) :
    path.vaultText = other.vaultText := by
  simp only [vaultText, hsame]

theorem fileName?_of_same (hsame : path.components = other.components) :
    path.fileName? = other.fileName? := by
  simp only [fileName?, hsame]

theorem stem_of_same (hsame : path.components = other.components) : path.stem = other.stem := by
  simp only [stem, fileName?_of_same hsame]

theorem extension?_of_same (hsame : path.components = other.components) :
    path.extension? = other.extension? := by
  simp only [extension?, fileName?_of_same hsame]

end Path

namespace Keeper

theorem isMarkdown_of_same (hsame : path.components = other.components) :
    isMarkdown path = isMarkdown other := by
  simp only [isMarkdown, Path.extension?_of_same hsame]

theorem skipReason?_of_same (keeper : Keeper) (holds : Holds) (now : Nat)
    (hsame : path.components = other.components) :
    keeper.skipReason? holds now path = keeper.skipReason? holds now other := by
  simp only [skipReason?, isMarkdown_of_same hsame, Path.vaultText_of_same hsame,
    Holds.isHeld_of_same hsame]

theorem arranged_of_same (hsame : path.components = other.components) :
    keeper.arranged path text = keeper.arranged other text := by
  simp only [arranged, Path.stem_of_same hsame]

end Keeper

namespace MemoryStore

theorem find?_of_same (hsame : path.components = other.components) :
    store.find? path = store.find? other := by
  simp only [find?, hsame]

theorem read_of_same (store : MemoryStore) (hsame : path.components = other.components) :
    store.read path = store.read other := by
  simp only [read, find?_of_same hsame]

theorem insert_of_same (hsame : path.components = other.components) :
    store.insert path text = store.insert other text := by
  simp only [insert, hsame]

theorem find?_insert_of_same (hsame : path.components = other.components) :
    (store.insert other text).find? path = some text := by
  rw [find?_of_same hsame, find?_insert_self]

end MemoryStore

/-! ### Processing a note -/

/-- What comes of processing a note comes of it under every spelling of its path. -/
theorem Processing.of_same (h : Processing keeper session path result)
    (hsame : path.components = other.components) :
    Processing keeper session other (result.1.shownAs other, result.2) := by
  have hskips := keeper.skipReason?_of_same session.holds session.now hsame
  have hreads := session.store.read_of_same hsame
  -- The case stays the same one: what it asks of the path does not depend on the spelling.
  cases h with
  | skipped reason hskip =>
    rw [hskips] at hskip ⊢
    exact .skipped reason hskip
  | unread cause hskip hread =>
    rw [hskips] at hskip
    rw [hreads] at hread
    exact .unread cause hskip hread
  | unchanged old hskip hread harranged =>
    rw [hskips] at hskip
    rw [hreads] at hread
    rw [Keeper.arranged_of_same hsame] at harranged
    exact .unchanged old hskip hread harranged
  | unwritten old hskip hread hnew hrefuses =>
    rw [hskips] at hskip
    rw [hreads] at hread
    rw [Keeper.arranged_of_same hsame] at hnew
    rw [Holds.hold_of_same hsame, Holds.release_of_same hsame]
    exact .unwritten old hskip hread hnew hrefuses
  | updated old hskip hread hnew hwrites =>
    rw [hskips] at hskip
    rw [hreads] at hread
    rw [Keeper.arranged_of_same hsame] at hnew ⊢
    rw [Holds.hold_of_same hsame, MemoryStore.insert_of_same hsame]
    exact .updated old hskip hread hnew hwrites

/-- Processing a note under another spelling of its path gives the same answer, but for the path
that an error shows, and leaves the very same session. -/
theorem Session.step_process_of_same (hsame : path.components = other.components) :
    session.step keeper MemoryStore.notesStore (.process other) =
      ((session.step keeper MemoryStore.notesStore (.process path)).1.shownAs other,
        (session.step keeper MemoryStore.notesStore (.process path)).2) :=
  ((processing_step keeper session path).of_same hsame).step_eq

end Waymark
