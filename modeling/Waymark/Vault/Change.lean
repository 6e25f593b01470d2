import Waymark.Vault.Path

/-!
# Changes in a vault

Change events are collected over windows of time, and each window with a changed note
gives one batch: the paths that were created or whose content changed, each once, in
the order of paths. A rename counts where it makes a name appear, since some programs
save a note by renaming a temporary file.

## Main definitions

* `ChangeKind`, `ChangeEvent` — what is told about a change
* `ChangeKind.isContent` — changes after which a note may have a new content
* `insertPath` — a path in a sorted list of distinct paths
* `batches` — one batch for each window with changed notes
-/

namespace Waymark

/-- The side of a rename that an event tells about. -/
inductive RenameSide where
  | any
  | source
  | target
  | both
  | other
  deriving DecidableEq, Repr

/-- What happened to the paths of an event. -/
inductive ChangeKind where
  | any
  | other
  | access
  | create
  | remove
  | modify
  | modifyMetadata
  | rename (side : RenameSide)
  deriving DecidableEq, Repr

/-- A note may have a new content after the change. -/
def ChangeKind.isContent : ChangeKind → Bool
  | .create | .modify | .rename .target => true
  | .any | .other | .access | .remove | .modifyMetadata | .rename _ => false

/-- What is told about changes. -/
inductive ChangeEvent where
  /-- Something happened to some paths. -/
  | change (kind : ChangeKind) (paths : List Path)
  /-- The events could not be had. -/
  | failure
  deriving DecidableEq, Repr

/-- The paths of an event after which a note may have a new content. -/
def ChangeEvent.contentPaths : ChangeEvent → List Path
  | .change kind paths => if kind.isContent then paths else []
  | .failure => []

/-- The list with a path at its place in the order. A path that is there already, in whatever
spelling, is not added. -/
def insertPath (path : Path) : List Path → List Path
  | [] => [path]
  | first :: rest =>
    match path.order first with
    | .lt => path :: first :: rest
    | .eq => first :: rest
    | .gt => first :: insertPath path rest

/-- The distinct paths of a window whose content changed, in their order. -/
def batchOf (window : List ChangeEvent) : List Path :=
  (window.flatMap ChangeEvent.contentPaths).foldl (fun batch path => insertPath path batch) []

/-- One batch for each window in which the content of some path changed. -/
def batches (windows : List (List ChangeEvent)) : List (List Path) :=
  (windows.map batchOf).filter (!·.isEmpty)

end Waymark
