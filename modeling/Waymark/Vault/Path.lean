import Waymark.Text

/-!
# Paths

Paths are texts whose segments are separated by slashes. Two spellings name the same
path when their components agree: empty segments and inner `.` segments do not count,
while a leading slash, a leading `.` and every `..` do. Paths are ordered component by
component.

Some folders of a vault are left alone. Such a folder is written by hand, so blanks and
slashes around it, a leading `./` and backslashes for slashes do not matter. A path is
excluded when it is such a folder or lies beneath one.

## Main definitions

* `Path`, `Component`, `Path.components` — paths and what they are made of
* `Path.same`, `Path.order` — equality and order by components
* `Path.join` — a path below a root
* `Path.isLong`, `Path.isLongName`, `Path.hasNul` — what no file system takes
* `Path.relativeTo?` — a path as seen from a root
* `Path.vaultText` — the components, joined with slashes
* `Path.stem`, `Path.extension?` — the two parts of a file name
* `plainFolder` — the plain form of a folder or path
* `isExcludedPath` — the path is one of the folders or lies beneath one
-/

namespace Waymark

/-- A path as it is written. -/
structure Path where
  /-- The spelling of the path. -/
  text : List Char
  deriving DecidableEq, Repr

/-- A part of a path that counts when paths are compared. -/
inductive Component where
  /-- The root of an absolute path. -/
  | root
  /-- A `.` at the front of a relative path. -/
  | here
  /-- A `..` segment. -/
  | parent
  /-- Any other segment. -/
  | name (text : List Char)
  deriving DecidableEq, Repr

namespace Component

/-- The component that a segment stands for at the front of a path. -/
def ofSegment (segment : List Char) : Component :=
  if segment = ['.'] then .here else if segment = ['.', '.'] then .parent else .name segment

/-- The text of a component. -/
def text : Component → List Char
  | .root => ['/']
  | .here => ['.']
  | .parent => ['.', '.']
  | .name text => text

/-- The place of the kind of a component in the order of kinds. -/
def rank : Component → Nat
  | .root => 0
  | .here => 1
  | .parent => 2
  | .name _ => 3

/-- The order of components: by kind, and names by their characters. -/
def order (a b : Component) : Ordering :=
  (compare a.rank b.rank).then (List.compareLex compare a.text b.text)

end Component

namespace Path

/-- The path that a text spells. -/
def ofString (text : String) : Path := ⟨text.toList⟩

/-- The spelling of a path. -/
def toString (path : Path) : String := .ofList path.text

/-- The texts between the slashes of a path. -/
def segments (path : Path) : List (List Char) :=
  path.text.splitOn '/'

/-- The segment does not count behind the front of a path. -/
def isSkipped (segment : List Char) : Bool :=
  segment == [] || segment == ['.']

/-- The component at the front of a path with the given segments, if there is one: a root, where
the first segment is empty and others follow, or the first segment itself. -/
def frontComponent (first : List Char) (rest : List (List Char)) : List Component :=
  if first.isEmpty then (if rest.isEmpty then [] else [.root]) else [.ofSegment first]

/-- The components of a path. -/
def components (path : Path) : List Component :=
  match path.segments with
  | [] => []
  | first :: rest =>
    frontComponent first rest ++ (rest.filter (!isSkipped ·)).map .ofSegment

/-- The two spellings name the same path. -/
def same (p q : Path) : Bool :=
  p.components == q.components

/-- The order of paths, component by component. -/
def order (p q : Path) : Ordering :=
  List.compareLex Component.order p.components q.components

/-- The path starts at the root. -/
def isAbsolute (path : Path) : Bool :=
  path.text.head? == some '/'

/-- The path below `root`. An absolute path stays as it is. -/
def join (root path : Path) : Path :=
  if path.isAbsolute || root.text.isEmpty then path
  else if root.text.getLast? == some '/' then ⟨root.text ++ path.text⟩
  else ⟨root.text ++ '/' :: path.text⟩

/-- The components joined with slashes. The root is a component whose text is itself a slash. -/
def vaultText (path : Path) : String :=
  .ofList (['/'].intercalate (path.components.map Component.text))

/-! ### Limits -/

/-- How many bytes a text takes in UTF-8. -/
def byteCount (text : List Char) : Nat :=
  text.foldr (fun c count => c.utf8Size + count) 0

/-- The segment has more bytes than a file's name may have. -/
def isLongName (segment : List Char) : Bool :=
  255 < byteCount segment

/-- The path has more bytes than a file system takes. -/
def isLong (path : Path) : Bool :=
  4095 < byteCount path.text

/-- The path holds a NUL. -/
def hasNul (path : Path) : Bool :=
  path.text.contains '\x00'

/-! ### Paths as seen from a root -/

/-- The segments up to the last one that counts. -/
def dropTrailing (segments : List (List Char)) : List (List Char) :=
  (segments.reverse.dropWhile isSkipped).reverse

/-- The segments behind the first `count` ones that count. -/
def dropSegments : Nat → List (List Char) → List (List Char)
  | 0, segments => segments
  | count + 1, segments => dropSegments count ((segments.dropWhile isSkipped).drop 1)

/-- The text of a path without the segments at its end that do not count. -/
def withoutTrailing (path : Path) : List Char :=
  match path.segments with
  | [] => []
  | first :: rest =>
    let kept := dropTrailing rest
    if first.isEmpty && kept.isEmpty && !rest.isEmpty then ['/']
    else ['/'].intercalate (first :: kept)

/-- The text behind the first `count` components of a path. Its inner spelling is kept. -/
def textBehind (path : Path) : Nat → List Char
  | 0 => path.withoutTrailing
  | count + 1 =>
    let rest := dropSegments count (path.segments.drop 1)
    ['/'].intercalate (dropTrailing (rest.dropWhile isSkipped))

/-- The path as seen from `root`, if it lies properly below it. -/
def relativeTo? (root path : Path) : Option Path :=
  if root.components.isPrefixOf path.components then
    let rest := path.textBehind root.components.length
    if rest.isEmpty then none else some ⟨rest⟩
  else none

/-! ### File names -/

/-- The last component, if it is a name. -/
def fileName? (path : Path) : Option (List Char) :=
  match path.components.getLast? with
  | some (.name text) => some text
  | _ => none

/-- A file name cut at its last dot. A name without a dot, or with none but a leading one, has no
extension. -/
def splitName (name : List Char) : List Char × Option (List Char) :=
  -- The text behind the last dot, or the whole name if there is no dot.
  let extension := (name.reverse.takeWhile (· != '.')).reverse
  let stem := name.take (name.length - extension.length - 1)
  if extension.length == name.length || stem.isEmpty then (name, none) else (stem, some extension)

/-- The file name without its extension. A path that ends in no name has an empty stem. -/
def stem (path : Path) : String :=
  .ofList ((path.fileName?.map fun name => (splitName name).1).getD [])

/-- The extension of the file name. -/
def extension? (path : Path) : Option (List Char) :=
  path.fileName?.bind fun name => (splitName name).2

end Path

/-! ### Excluded folders -/

/-- The text without any `./` at its front. -/
def withoutLeadingHere : List Char → List Char
  | '.' :: '/' :: rest => withoutLeadingHere rest
  | text => text

/-- The text without the slashes at its two ends. -/
def trimSlashes (text : List Char) : List Char :=
  ((text.dropWhile (· == '/')).reverse.dropWhile (· == '/')).reverse

/-- A folder or path in its plain form: blanks trimmed, slashes for backslashes, no leading `./`
and no slashes at its ends. -/
def plainFolder (raw : List Char) : List Char :=
  trimSlashes (withoutLeadingHere ((trim raw).map fun c => if c = '\\' then '/' else c))

/-- The plain path is the plain folder or lies beneath it. -/
def liesIn (path folder : List Char) : Bool :=
  match after? folder path with
  | none => false
  | some rest => rest.isEmpty || rest.head? == some '/'

/-- The path is one of the folders or lies beneath one. Empty folders exclude nothing. -/
def isExcludedPath (path : String) (folders : List String) : Bool :=
  let plain := plainFolder path.toList
  (folders.map fun folder => plainFolder folder.toList).any fun folder =>
    !folder.isEmpty && liesIn plain folder

end Waymark
