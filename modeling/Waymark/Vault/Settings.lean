import Waymark.Json.Reader
import Waymark.Note
import Waymark.Options
import Waymark.Vault.FileTree
import Waymark.Vault.Path

/-!
# Settings

The settings of a vault: options for its notes, the time that changes are collected,
and the excluded folders. They are a JSON object in which the fields of the options
stand beside the others.

The two fields that are not options are checked while the text is read, so what is
wrong with them is reported before anything behind them is looked at. The options are
checked when the closing brace is reached, in the order in which they stand.

## Main definitions

* `Settings` — the settings, with their defaults
* `Settings.ofText` — settings from a text
* `Settings.load` — settings from a file that may be missing
* `Settings.isExcluded` — a path lies in an excluded folder
-/

namespace Waymark

/-- The settings of a vault. -/
structure Settings where
  /-- What is chosen for the notes. -/
  options : Options := {}
  /-- How long changes are collected before they are handled, in milliseconds. -/
  debounce : Nat := 250
  /-- The folders whose notes are left alone. -/
  excludedFolders : List String := []
  deriving DecidableEq, Repr

/-- Why settings could not be had. -/
inductive SettingsError where
  /-- The text of the settings cannot be used. -/
  | text (cause : ReadError)
  /-- The file of the settings cannot be read. -/
  | file (path : Path) (cause : FileError)
  deriving DecidableEq, Repr

namespace Settings

/-! ### Reading the members -/

/-- What has been read of the settings, member by member. -/
structure Draft where
  /-- The collection time, once its member has been read. -/
  debounce? : Option Nat := none
  /-- The excluded folders, once their member has been read. -/
  excludedFolders? : Option (List String) := none
  /-- All other members, in their order. -/
  members : List (String × Json) := []

/-- Reads a number of milliseconds. -/
def readMilliseconds : Reader Nat := fun text =>
  if text.head?.any fun c => c == '-' || c.isDigit then do
    let (value, rest) ← readNumber text
    match value with
    | .integer n =>
      if inUInt64 n then return (n.toNat, rest)
      else throw (.mismatch (.wrongValue (.number value) .unsigned))
    | .real _ _ => throw (.mismatch (.wrongType (.number value) .unsigned))
  else readUnexpected .unsigned text

/-- Reads a text in an array. -/
def readFolder : Reader String := fun text =>
  match skipSpace text with
  | '"' :: rest => readString rest
  | text => readUnexpected .string text

/-- Reads an array of texts. -/
def readFolders : Reader (List String) := fun text =>
  match text with
  | '[' :: rest => readItems readFolder rest
  | text => readUnexpected .sequence text

/-- The name of the field that gives the collection time. -/
def debounceName : String := "debounce_ms"

/-- The name of the field that gives the excluded folders. -/
def excludedFoldersName : String := "excludedFolders"

/-- Reads a member into the draft. The two fields that are no options may occur once. -/
def readField : MemberReader Draft := fun draft name text =>
  if name = debounceName then
    if draft.debounce?.isSome then .error (.mismatch (.duplicateField name))
    else do
      let (value, rest) ← readAfterColon readMilliseconds text
      return ({ draft with debounce? := some value }, rest)
  else if name = excludedFoldersName then
    if draft.excludedFolders?.isSome then .error (.mismatch (.duplicateField name))
    else do
      let (value, rest) ← readAfterColon readFolders text
      return ({ draft with excludedFolders? := some value }, rest)
  else do
    let (members, rest) ←
      collectMember (readValue (nestingLimit - 1)) draft.members name text
    return ({ draft with members }, rest)

/-- Reads the members of the settings. -/
def readDraft : Reader Draft := fun text =>
  match skipSpace text with
  | '\x7b' :: rest => readMembers readField {} rest
  | text => readUnexpected .settings text

/-! ### Settings from a text -/

/-- The settings that a draft comes to. -/
def ofDraft (draft : Draft) : Except Mismatch Settings := do
  let options ← Options.ofMembers draft.members
  return {
    options
    debounce := draft.debounce?.getD ({} : Settings).debounce
    excludedFolders := draft.excludedFolders?.getD [] }

/-- The settings that a text spells. -/
def ofText (text : String) : Except ReadError Settings := do
  let (draft, rest) ← readDraft text.toList
  -- The options are looked at before the rest of the text.
  match ofDraft draft with
  | .error cause => throw (.mismatch cause)
  | .ok settings => if isAtEnd rest then return settings else throw .malformed

/-- The options for a vault's notes, with every field in its range. -/
def noteOptions (settings : Settings) : Options :=
  settings.options.normalized

/-- The path lies in an excluded folder. -/
def isExcluded (settings : Settings) (path : String) : Bool :=
  isExcludedPath path settings.excludedFolders

/-! ### What is reported -/

/-- What is reported about the levels among the members, unless a member before them is wrong. -/
def memberNotices (members : List (String × Json)) : List Notice :=
  let isLevels (member : String × Json) : Bool := member.1 == OptionField.footerLevels.name
  match Options.ofMembers (members.takeWhile (!isLevels ·)), members.find? isLevels with
  | .ok _, some (_, value) => levelNotices ((levelNumbers? value).getD [])
  | _, _ => []

/-- What is reported while a text is read. -/
def textNotices (text : String) : List Notice :=
  match readDraft text.toList with
  | .ok (draft, _) => memberNotices draft.members
  | .error _ => []

/-- A path as the value of a notice. -/
def pathValue (path : Path) : String × String := ("path", path.toString)

/-! ### Settings from a file -/

/-- The settings in a file, with what is reported about them. Without a file, and where there is
none at the path, they are the defaults. -/
def load {m : Type → Type} [Monad m] [FileSystem m] :
    Option Path → m (Except SettingsError Settings × List Notice)
  | none => return (.ok {}, [])
  | some path => do
    match ← FileSystem.readText path with
    | .error .notFound =>
      return (.ok {}, [⟨.debug, "settings file missing, using defaults", [pathValue path]⟩])
    | .error cause => return (.error (.file path cause), [])
    | .ok text =>
      match ofText text with
      | .error cause => return (.error (.text cause), textNotices text)
      | .ok settings =>
        return (.ok settings, textNotices text ++ [⟨.info, "loaded settings", [pathValue path]⟩])

end Settings

/-- The text of an error of a file, with the path at which it arose. -/
def fileErrorMessage (path : Path) (cause : FileError) : String :=
  "io error on " ++ path.toString ++ ": " ++ cause.message

/-- The text of an error in the text of settings. -/
def settingsErrorMessage (cause : Mismatch) : String :=
  "invalid settings: " ++ cause.message

end Waymark
