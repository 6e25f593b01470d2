import Waymark.Footer
import Waymark.Json
import Waymark.Toc

/-!
# Options

What can be chosen about the navigation of a note.

As a JSON value, options are an object with any of the five fields, an array of the leading
fields in their order, or `null` for the defaults. Other members are ignored. The levels of
the footers may be a number, a text such as `2, 3`, or an array of numbers and texts; what
is no integer among them is skipped.

## Main definitions

* `Options` — the choices, with their defaults
* `cleanLevels` — heading levels among some integers
* `Options.normalized` — the options with every field in its range
* `levelsOfText`, `levelNumbers?` — the integers that a text or a value spells
* `OptionField` — the fields, by their names
* `Options.read` — the options with one field read from a value
* `Options.ofMembers`, `Options.ofItems`, `Options.ofJson` — options from a value
-/

namespace Waymark

/-! ### The choices -/

/-- What can be chosen about the navigation of a note. -/
structure Options where
  /-- Deepest heading level in the table of contents; zero stands for the default. -/
  maxDepth : Nat := defaultDepth
  /-- Levels of the sections that end in a footer. -/
  footerLevels : List Nat := [2]
  /-- Whether a title made from a file name is prettified. -/
  prettifyTitle : Bool := true
  /-- Whether a note without frontmatter gets an empty block. -/
  createFrontmatter : Bool := false
  /-- The rule line of a footer. -/
  rule : List Char := defaultRule
  deriving DecidableEq, Repr

/-- The integer is a heading level. -/
def isLevel (n : Int) : Bool :=
  1 ≤ n && n ≤ deepestLevel

/-- The heading levels among the integers, each once, in the order they first occur. -/
def cleanLevels (numbers : List Int) : List Nat :=
  ((numbers.filter isLevel).map Int.toNat).foldl
    (fun levels level => if levels.contains level then levels else levels ++ [level]) []

namespace Options

/-- The rule line that the options stand for, without blanks at its end. -/
def usableRule (options : Options) : Line :=
  ruleLine (trimEnd options.rule)

/-- The options with every field in its range. -/
def normalized (options : Options) : Options :=
  { options with
    maxDepth := effectiveDepth options.maxDepth
    footerLevels := cleanLevels (options.footerLevels.map Int.ofNat)
    rule := options.usableRule }

end Options

/-! ### Options as JSON values -/

/-- The signed 64-bit integer that a text spells, blanks around it apart. -/
def int64OfText? (text : List Char) : Option Int :=
  (integerOfText? (trim text)).filter inInt64

/-- The integers of a list that is separated by commas. -/
def numbersOfText (text : List Char) : List Int :=
  (text.splitOn ',').filterMap int64OfText?

/-- The levels of a list that is separated by commas. -/
def levelsOfText (text : List Char) : List Nat :=
  cleanLevels (numbersOfText text)

/-- The integer that a value stands for, as a number or as a text. -/
def numberOfItem? : Json → Option Int
  | .number (.integer n) => if inInt64 n then some n else none
  | .string text => int64OfText? text.toList
  | _ => none

/-- The integers that a value spells as a list of levels. -/
def levelNumbers? : Json → Option (List Int)
  | .number (.integer n) => if inInt64 n then some [n] else none
  | .string text => some (numbersOfText text.toList)
  | .array items => some (items.filterMap numberOfItem?)
  | _ => none

/-- The fields of options. -/
inductive OptionField where
  | maxDepth
  | footerLevels
  | prettifyTitle
  | createFrontmatter
  | rule
  deriving DecidableEq, Repr

namespace OptionField

/-- The name of a field in a JSON object. -/
def name : OptionField → String
  | .maxDepth => "max_depth"
  | .footerLevels => "footer_levels"
  | .prettifyTitle => "prettify_h1"
  | .createFrontmatter => "create_frontmatter"
  | .rule => "hr"

/-- The fields in the order in which an array gives them. -/
def all : List OptionField :=
  [.maxDepth, .footerLevels, .prettifyTitle, .createFrontmatter, .rule]

/-- The fields in the order of their names. -/
def byName : List OptionField :=
  [.createFrontmatter, .footerLevels, .rule, .maxDepth, .prettifyTitle]

/-- The field of a name. -/
def ofName? (name : String) : Option OptionField :=
  all.find? fun field => field.name == name

end OptionField

/-- The depth that a value gives, moved into the range from zero to the deepest level. -/
def readDepth : Json → Except Mismatch Nat
  | .number (.integer n) =>
    if inInt64 n then .ok (min (max n 0) deepestLevel).toNat
    else .error (.wrongValue (.number (.integer n)) .signed)
  | value => .error (.wrongType (.ofJson value) .signed)

/-- The flag that a value gives. -/
def readFlag : Json → Except Mismatch Bool
  | .boolean flag => .ok flag
  | value => .error (.wrongType (.ofJson value) .boolean)

/-- The text that a value gives. -/
def readText : Json → Except Mismatch String
  | .string text => .ok text
  | value => .error (.wrongType (.ofJson value) .string)

/-- The levels that a value gives. -/
def readLevels (value : Json) : Except Mismatch (List Nat) :=
  match levelNumbers? value with
  | some numbers => .ok (cleanLevels numbers)
  | none => .error .noLevels

namespace Options

/-- The options with one field read from a value. -/
def read (options : Options) (field : OptionField) (value : Json) : Except Mismatch Options :=
  match field with
  | .maxDepth => (readDepth value).map fun maxDepth => { options with maxDepth }
  | .footerLevels => (readLevels value).map fun footerLevels => { options with footerLevels }
  | .prettifyTitle => (readFlag value).map fun prettifyTitle => { options with prettifyTitle }
  | .createFrontmatter =>
    (readFlag value).map fun createFrontmatter => { options with createFrontmatter }
  | .rule => (readText value).map fun text => { options with rule := text.toList }

/-- The options with some fields read, one after another. -/
def readAll (options : Options) : List (OptionField × Json) → Except Mismatch Options
  | [] => .ok options
  | (field, value) :: rest => do (← options.read field value).readAll rest

/-- The fields that an object gives, each with its last value, in the order of their names. -/
def fieldsByName (members : List (String × Json)) : List (OptionField × Json) :=
  OptionField.byName.filterMap fun field =>
    (Json.lookup? members field.name).map fun value => (field, value)

/-- Options from the items of an array. -/
def ofItems (items : List Json) : Except Mismatch Options := do
  let options ← readAll {} (OptionField.all.zip items)
  if items.length ≤ OptionField.all.length then return options
  else throw (.tooManyItems items.length)

/-- Options from a value. -/
def ofJson : Json → Except Mismatch Options
  | .null => .ok {}
  | .object members => readAll {} (fieldsByName members)
  | .array items => ofItems items
  | value => .error (.wrongType (.ofJson value) .options)

/-- Options from the members of an object in their order, the fields in `seen` having occurred
before. No field may occur twice. -/
def ofMembersFrom (options : Options) (seen : List OptionField) :
    List (String × Json) → Except Mismatch Options
  | [] => .ok options
  | (name, value) :: rest =>
    match OptionField.ofName? name with
    | none => options.ofMembersFrom seen rest
    | some field =>
      if seen.contains field then .error (.duplicateField name)
      else do (← options.read field value).ofMembersFrom (field :: seen) rest

/-- Options from the members of an object, read in their order. -/
def ofMembers (members : List (String × Json)) : Except Mismatch Options :=
  ofMembersFrom {} [] members

end Options

/-- The text of an error in options. -/
def optionsErrorMessage (cause : Mismatch) : String :=
  "invalid transform config: " ++ cause.message

end Waymark
