import Waymark.Text.Quoted
import Waymark.Vault.Path

/-!
# Stores of notes

Where notes are read from and written back to. A store acts within some monad, so that
one and the same service works on files and on notes kept in memory.

A note or a settings file may fail to be read or written: for the causes that a file system
gives, or for those of a store that is kept in memory. The memory store keeps one text for
all spellings of a path. It can be told to refuse to be read or to be written, and then it
changes nothing.

## Main definitions

* `FileError` — why a file could not be read or written
* `FileError.message`, `FileError.kind` — the text of a cause, and the name of its kind
* `FileError.details` — a cause with all its parts, as the command line shows it
* `Store` — reading and writing notes
* `MemoryStore` — notes kept in memory
-/

namespace Waymark

/-! ### Causes of failure -/

/-- Why a file could not be read or written. -/
inductive FileError where
  /-- There is no such file or folder. -/
  | notFound
  /-- A part of the path that should be a folder is a file. -/
  | notFolder
  /-- The path names a folder. -/
  | isFolder
  /-- Access is denied. -/
  | denied
  /-- The path, or a name in it, has too many bytes. -/
  | nameTooLong
  /-- The path holds a NUL, so it can name no file. -/
  | nulInPath
  /-- The content is no text in UTF-8. -/
  | invalidText
  /-- The store holds no such note. -/
  | missing
  /-- The store refuses to be read. -/
  | readRefused
  /-- The store refuses to be written. -/
  | writeRefused
  /-- Any other cause. -/
  | other (text : String)
  deriving DecidableEq, Repr

namespace FileError

/-- The error number of a file system, for the causes that it gives. -/
def number? : FileError → Option Nat
  | .notFound => some 2
  | .denied => some 13
  | .notFolder => some 20
  | .isFolder => some 21
  | .nameTooLong => some 36
  | _ => none

/-- What went wrong, in words. -/
def description : FileError → String
  | .notFound => "No such file or directory"
  | .notFolder => "Not a directory"
  | .isFolder => "Is a directory"
  | .denied => "Permission denied"
  | .nameTooLong => "File name too long"
  | .nulInPath => "file name contained an unexpected NUL byte"
  | .invalidText => "stream did not contain valid UTF-8"
  | .missing => "missing"
  | .readRefused => "read refused"
  | .writeRefused => "write refused"
  | .other text => text

/-- The name of the kind of a cause. -/
def kind : FileError → String
  | .notFound | .missing => "NotFound"
  | .notFolder => "NotADirectory"
  | .isFolder => "IsADirectory"
  | .denied | .writeRefused => "PermissionDenied"
  | .nameTooLong => "InvalidFilename"
  | .nulInPath => "InvalidInput"
  | .invalidText => "InvalidData"
  | .readRefused | .other _ => "Other"

/-- The text of a cause: the description, with its error number if it has one. -/
def message (cause : FileError) : String :=
  match cause.number? with
  | some number => cause.description ++ " (os error " ++ toString number ++ ")"
  | none => cause.description

/-- A cause with all its parts. -/
def details (cause : FileError) : String :=
  let parts := "kind: " ++ cause.kind ++ ", message: " ++ quoted cause.description ++ " \x7d"
  match cause.number? with
  | some number => "Os \x7b code: " ++ toString number ++ ", " ++ parts
  | none => "Error \x7b " ++ parts

end FileError

/-! ### Stores -/

/-- Where notes are read from and written back to. -/
structure Store (m : Type → Type) where
  /-- The text of a note. -/
  read : Path → m (Except FileError String)
  /-- Gives a note a text. -/
  write : Path → String → m (Except FileError Unit)

/-- Notes kept in memory. -/
structure MemoryStore where
  /-- The notes, by the components of their paths; at most one for each path. -/
  notes : List (List Component × String) := []
  /-- Whether the store refuses to be read. -/
  refusesReads : Bool := false
  /-- Whether the store refuses to be written. -/
  refusesWrites : Bool := false
  deriving DecidableEq, Repr

namespace MemoryStore

/-- The text of a note, if the store holds it. -/
def find? (store : MemoryStore) (path : Path) : Option String :=
  (store.notes.find? fun note => note.1 == path.components).map (·.2)

/-- The store with the text of one note replaced, or the note added. -/
def insert (store : MemoryStore) (path : Path) (text : String) : MemoryStore :=
  { store with
    notes := (path.components, text) ::
      store.notes.filter fun note => note.1 != path.components }

/-- The store that from now on refuses to be read or written, or no longer does. -/
def refuse (store : MemoryStore) (reads writes : Bool) : MemoryStore :=
  { store with refusesReads := reads, refusesWrites := writes }

/-- The text of a note, or why there is none. -/
def read (store : MemoryStore) (path : Path) : Except FileError String :=
  if store.refusesReads then .error .readRefused
  else
    match store.find? path with
    | some text => .ok text
    | none => .error .missing

/-- The store after a note was given a text, or why it was not. -/
def write (store : MemoryStore) (path : Path) (text : String) :
    Except FileError Unit × MemoryStore :=
  if store.refusesWrites then (.error .writeRefused, store)
  else (.ok (), store.insert path text)

/-- The memory store as a store of notes. -/
def notesStore : Store (StateM MemoryStore) where
  read path := fun store => (store.read path, store)
  write path text := fun store => store.write path text

end MemoryStore

end Waymark
