import Waymark.Text
import Waymark.Vault.Store

/-!
# File systems

What the command line needs of a file system, and a file system that is a value: files
and folders, and a working folder among them. Paths are followed segment by segment, an
absolute one from the root and any other one from the working folder. An empty segment,
as after a slash at the end, and a `.` ask for a folder. A `..` leads to the folder above,
and at the root to the root itself. A path that no file system takes is refused before it
is followed, whatever files there are.

## Main definitions

* `FileSystem` — reading and writing files, and asking for folders
* `FileSystem.store` — the notes below a root folder
* `FileTree` — files and folders, and the working folder
* `FileTree.resolve` — what a path leads to
* `FileTree.read`, `FileTree.write`, `FileTree.find` — its operations
-/

namespace Waymark

/-- What the command line needs of a file system. -/
class FileSystem (m : Type → Type) where
  /-- The text of a file. -/
  readText : Path → m (Except FileError String)
  /-- Gives a file a text, and makes the file if its folder exists. -/
  writeText : Path → String → m (Except FileError Unit)
  /-- Succeeds if there is a file or folder at the path. -/
  find : Path → m (Except FileError Unit)

/-- The notes below a root folder. -/
def FileSystem.store (m : Type → Type) [FileSystem m] (root : Path) : Store m where
  read path := FileSystem.readText (root.join path)
  write path text := FileSystem.writeText (root.join path) text

/-- A place in a file system: the names that lead to it from the root. -/
abbrev Place := List (List Char)

/-- Files and folders, and the folder in which paths that are not absolute start. -/
structure FileTree where
  /-- The files, each with its content. -/
  files : List (Place × ByteArray) := []
  /-- The folders other than the working folder and those above it. -/
  folders : List Place := []
  /-- The working folder. -/
  workFolder : Place := ["work".toList]

namespace FileTree

/-- The content of the file at a place. -/
def file? (tree : FileTree) (place : Place) : Option ByteArray :=
  (tree.files.find? fun file => file.1 == place).map (·.2)

/-- There is a folder at the place. -/
def isFolder (tree : FileTree) (place : Place) : Bool :=
  place.isPrefixOf tree.workFolder || tree.folders.contains place

/-- The places above a place, the root apart. -/
def placesAbove (place : Place) : List Place :=
  (List.range place.length).tail.map place.take

/-- The tree with a folder at a place below the working folder, and all folders above it. -/
def addFolder (tree : FileTree) (inner : Place) : FileTree :=
  let place := tree.workFolder ++ inner
  { tree with folders := tree.folders ++ placesAbove place ++ [place] }

/-- The tree with the given content in the file at the place. -/
def setFile (tree : FileTree) (place : Place) (content : ByteArray) : FileTree :=
  { tree with
    files := tree.files.filter (fun file => file.1 != place) ++ [(place, content)] }

/-- The tree with a file of the given content at a place below the working folder, and all folders
above it. -/
def addFile (tree : FileTree) (inner : Place) (content : ByteArray) : FileTree :=
  let place := tree.workFolder ++ inner
  { tree.setFile place content with folders := tree.folders ++ placesAbove place }

/-- What a path leads to: a file or a folder. -/
inductive Target where
  | file (place : Place)
  | folder (place : Place)
  deriving DecidableEq, Repr

/-- The target one segment further. -/
def step (tree : FileTree) (target : Target) (segment : List Char) : Except FileError Target :=
  match target with
  | .file _ => .error .notFolder
  | .folder place =>
    if Path.isSkipped segment then .ok (.folder place)
    -- The root, which has no last name to drop, is the folder above itself.
    else if segment == ['.', '.'] then .ok (.folder place.dropLast)
    else
      let next := place ++ [segment]
      if Path.isLongName segment then .error .nameTooLong
      else if tree.isFolder next then .ok (.folder next)
      else if (tree.file? next).isSome then .ok (.file next)
      else .error .notFound

/-- The target some segments further. -/
def follow (tree : FileTree) (target : Target) : List (List Char) → Except FileError Target
  | [] => .ok target
  | segment :: rest => do (tree.follow (← tree.step target segment) rest)

/-- The target where a path starts to be followed. -/
def startOf (tree : FileTree) (path : Path) : Target :=
  .folder (if path.isAbsolute then [] else tree.workFolder)

/-- Why a path is refused before it is followed, if it is. -/
def refusal? (path : Path) : Option FileError :=
  if path.hasNul then some .nulInPath
  else if path.text.isEmpty then some .notFound
  else if path.isLong then some .nameTooLong
  else none

/-- What a path leads to. -/
def resolve (tree : FileTree) (path : Path) : Except FileError Target :=
  match refusal? path with
  | some cause => .error cause
  | none => tree.follow (tree.startOf path) path.segments

/-- The text of the file that a path leads to. -/
def read (tree : FileTree) (path : Path) : Except FileError String := do
  match ← tree.resolve path with
  | .file place =>
    match (tree.file? place).bind String.fromUTF8? with
    | some text => .ok text
    | none => .error .invalidText
  | _ => .error .isFolder

/-- The segments of a path that lead to the folder of its last name, and that name with whether
anything but slashes follows it. A path that ends in no name has none. -/
def splitLast (path : Path) : List (List Char) × Option (List Char × Bool) :=
  let trailing := path.segments.reverse.takeWhile (·.isEmpty)
  match path.segments.reverse.dropWhile (·.isEmpty) with
  | [] => (path.segments, none)
  | last :: above =>
    if last == ['.'] || last == ['.', '.'] then (path.segments, none)
    else (above.reverse, some (last, trailing.isEmpty))

/-- The place of the file that writing to a path gives a content. -/
def writePlace (tree : FileTree) (path : Path) : Except FileError Place := do
  if let some cause := refusal? path then throw cause
  let (above, last?) := splitLast path
  match ← tree.follow (tree.startOf path) above, last? with
  | .file _, _ => throw .notFolder
  | _, none => throw .isFolder
  | .folder place, some (name, isBare) =>
    -- A slash behind the last name asks for a folder, even where there is nothing yet.
    if !isBare then throw .isFolder
    else if Path.isLongName name then throw .nameTooLong
    else if tree.isFolder (place ++ [name]) then throw .isFolder
    else return place ++ [name]

/-- The tree after the file at a path was given a text, or why it was not. -/
def write (tree : FileTree) (path : Path) (text : String) : Except FileError Unit × FileTree :=
  match tree.writePlace path with
  | .ok place => (.ok (), tree.setFile place text.toUTF8)
  | .error cause => (.error cause, tree)

/-- Succeeds if a path leads to a file or folder. -/
def find (tree : FileTree) (path : Path) : Except FileError Unit :=
  (tree.resolve path).map fun _ => ()

/-- The files below the working folder by their paths from there, as texts. -/
def texts (tree : FileTree) : List (String × String) :=
  tree.files.filterMap fun (place, content) =>
    (tree.workFolder.isPrefixOf? place).map fun inner =>
      (.ofList (['/'].intercalate inner), lossyText content)

instance : FileSystem (StateM FileTree) where
  readText path := fun tree => (tree.read path, tree)
  writeText path text := fun tree => tree.write path text
  find path := fun tree => (tree.find path, tree)

end FileTree

end Waymark
