import Waymark.Buffer
import Waymark.Text

/-!
# Log lines

What the program reports while it works. A notice has a level, a message and named
values. A verbosity lets through the notices up to some level, or none.

## Main definitions

* `LogLevel`, `Verbosity` — levels, and the least important one that is shown
* `Verbosity.ofText?` — a verbosity from its name or number
* `Notice`, `Notice.text` — one report, and the text that shows it
* `Verbosity.print`, `Verbosity.lines` — the text printed for some notices, and its lines
-/

namespace Waymark

/-- How important a notice is, the most important level first. -/
inductive LogLevel where
  | error
  | warn
  | info
  | debug
  | trace
  deriving DecidableEq, Repr

namespace LogLevel

/-- The place of a level in the order of importance, counted from one. -/
def rank : LogLevel → Nat
  | .error => 1
  | .warn => 2
  | .info => 3
  | .debug => 4
  | .trace => 5

/-- All levels, the most important one first. -/
def all : List LogLevel := [.error, .warn, .info, .debug, .trace]

/-- The name of a level, in lower case. -/
def name : LogLevel → String
  | .error => "error"
  | .warn => "warn"
  | .info => "info"
  | .debug => "debug"
  | .trace => "trace"

end LogLevel

/-- The least important level that is shown; `none` shows nothing. -/
abbrev Verbosity := Option LogLevel

namespace Verbosity

/-- The verbosity of a name in lower case. The empty name stands for errors. -/
def ofName? (name : String) : Option Verbosity :=
  if name == "off" then some none
  else if name == "" then some (some .error)
  else (LogLevel.all.find? (·.name == name)).map some

/-- The verbosity of a number: zero is off, and five shows everything. -/
def ofNumber? (n : Nat) : Option Verbosity :=
  if n = 0 then some none else (LogLevel.all.find? (·.rank == n)).map some

/-- The number that a text spells, with digits after an optional plus sign. -/
def number? : List Char → Option Nat
  | '+' :: digits => naturalOfText? digits
  | digits => naturalOfText? digits

/-- The verbosity that a text stands for, by number or by name. Blanks around it and the case of
ASCII letters do not matter. -/
def ofText? (text : String) : Option Verbosity :=
  let word := trim text.toList
  match number? word with
  | some n => ofNumber? n
  | none => ofName? (.ofList (word.map Char.toLower))

/-- The verbosity where none is asked for. -/
def default : Verbosity := some .info

/-- The name of a verbosity. -/
def name : Verbosity → String
  | none => "off"
  | some level => level.name

/-- Notices of the level are shown. -/
def shows (verbosity : Verbosity) (level : LogLevel) : Bool :=
  verbosity.any fun least => level.rank ≤ least.rank

end Verbosity

/-- One report of the program. -/
structure Notice where
  /-- How important it is. -/
  level : LogLevel
  /-- What happened. -/
  message : String
  /-- The values that belong to it, each with its name. -/
  values : List (String × String) := []
  deriving DecidableEq, Repr

/-- The text that shows a notice. It has several lines if a value does. -/
def Notice.text (notice : Notice) : String :=
  notice.level.name.map Char.toUpper ++ " " ++ notice.message ++
    String.join (notice.values.map fun (name, value) => " " ++ name ++ "=" ++ value)

/-- The text printed for some notices. Each one that is shown starts a line and ends it. -/
def Verbosity.print (verbosity : Verbosity) (notices : List Notice) : String :=
  String.join ((notices.filter fun notice => verbosity.shows notice.level).map (·.text ++ "\n"))

/-- The lines printed for some notices. A value that holds a line end goes on in a line of its
own. -/
def Verbosity.lines (verbosity : Verbosity) (notices : List Notice) : List String :=
  -- The printed text ends with a line end, so no line follows the last cut.
  (splitLines (verbosity.print notices).toList).dropLast.map .ofList

end Waymark
