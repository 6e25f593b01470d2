import Waymark.Vault.Holder
import Waymark.Vault.Settings

/-!
# Keeping the notes of a vault

One note at a time is brought into shape. A path is passed over when it names no
Markdown file, lies in an excluded folder or is held. Otherwise the note is read, and
it is written back only if its navigation was not in place. The path is held while the
note is written and for some time after, so that the change that one's own writing
causes is not taken up again; a failed writing leaves no hold behind.

## Main definitions

* `SkipReason`, `Outcome` — what can come of a note
* `Keeper`, `Keeper.ofSettings` — the settings at work
* `Keeper.skipReason?` — why a path is passed over
* `Keeper.arranged` — the text that a note is to have
* `Keeper.process` — brings one note into shape
-/

namespace Waymark

/-- Why a note is passed over. -/
inductive SkipReason where
  /-- The path names no Markdown file. -/
  | notMarkdown
  /-- The path lies in an excluded folder. -/
  | excluded
  /-- The path is held. -/
  | held
  deriving DecidableEq, Repr

/-- What came of a note. -/
inductive Outcome where
  | skipped (reason : SkipReason)
  | unchanged
  | updated
  deriving DecidableEq, Repr

/-- A note that could not be read or written. -/
structure NoteError where
  /-- The path of the note. -/
  path : Path
  /-- Why it could not be read or written. -/
  cause : FileError
  deriving DecidableEq, Repr

/-- The text of an error of a note. -/
def NoteError.message (error : NoteError) : String :=
  fileErrorMessage error.path error.cause

/-- The settings at work on a vault. -/
structure Keeper where
  /-- The settings. -/
  settings : Settings
  /-- The options for the notes, with every field in its range. -/
  options : Options
  deriving DecidableEq, Repr

/-- What processing a path came to. -/
structure Visit where
  /-- The outcome, or why there is none. -/
  result : Except NoteError Outcome
  /-- The holds afterwards. -/
  holds : Holds
  /-- What is reported. -/
  notices : List Notice

namespace Keeper

/-- The settings put to work. -/
def ofSettings (settings : Settings) : Keeper :=
  ⟨settings, settings.noteOptions⟩

/-- The path names a Markdown file. -/
def isMarkdown (path : Path) : Bool :=
  path.extension? == some ['m', 'd']

/-- Why a path is passed over at the time `now`, if it is, and the holds afterwards. -/
def skipReason? (keeper : Keeper) (holds : Holds) (now : Nat) (path : Path) :
    Option SkipReason × Holds :=
  if !isMarkdown path then (some .notMarkdown, holds)
  else if keeper.settings.isExcluded path.vaultText then (some .excluded, holds)
  else
    let (held, holds) := holds.isHeld path now
    (if held then some .held else none, holds)

/-- The text that a note of the given path and text is to have. -/
def arranged (keeper : Keeper) (path : Path) (text : String) : String :=
  arrange text path.stem keeper.options

/-- The word for a reason in a notice. -/
def reasonValue : SkipReason → String
  | .notMarkdown => "NotMarkdown"
  | .excluded => "Excluded"
  | .held => "Guarded"

/-- Brings the note at a path into shape, at the time `now`. -/
def process {m : Type → Type} [Monad m] (keeper : Keeper) (store : Store m) (holds : Holds)
    (now : Nat) (path : Path) : m Visit :=
  match keeper.skipReason? holds now path with
  | (some reason, holds) =>
    return ⟨.ok (.skipped reason), holds,
      [⟨.debug, "skipping", [Settings.pathValue path, ("reason", reasonValue reason)]⟩]⟩
  | (none, holds) => do
    match ← store.read path with
    | .error cause => return ⟨.error ⟨path, cause⟩, holds, []⟩
    | .ok old =>
      let new := keeper.arranged path old
      let notices := arrangeNotices old path.stem keeper.options
      if new = old then
        return ⟨.ok .unchanged, holds,
          notices ++ [⟨.debug, "already normalized", [Settings.pathValue path]⟩]⟩
      else
        -- The hold comes first: the change may be seen before the writing returns.
        let holds := holds.hold path now
        match ← store.write path new with
        | .error cause => return ⟨.error ⟨path, cause⟩, holds.release path, notices⟩
        | .ok () =>
          return ⟨.ok .updated, holds,
            notices ++ [⟨.info, "rewrote note", [Settings.pathValue path]⟩]⟩

end Keeper

end Waymark
