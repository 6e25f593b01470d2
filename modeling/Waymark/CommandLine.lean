import Waymark.Vault.Keeper

/-!
# The command line

Three commands: `watch` keeps a vault in shape, `run` brings one note into shape, and
`print` writes out what a note would become. The settings file may be given anywhere
among the arguments, and it is read before the arguments are looked at.

Commands act within any monad with a file system. What they come to is a value, which
the outermost layer prints.

## Main definitions

* `Command`, `Arguments` — commands, and arguments less the settings file
* `CommandError` — why a command fails
* `Report` — what a command came to
* `CommandLine.execute` — reads the settings and carries out a command
-/

namespace Waymark

/-- What can be asked for. -/
inductive Command where
  /-- Keep a vault in shape. -/
  | watch (vault : Path)
  /-- Bring one note of a vault into shape. -/
  | run (vault file : Path)
  /-- Write out what a note would become. -/
  | print (file : Path)
  deriving DecidableEq, Repr

/-- The arguments, and the settings file among them. -/
structure Arguments where
  /-- The other arguments. -/
  positional : List String := []
  /-- The last settings file that is given. -/
  settings? : Option Path := none
  deriving DecidableEq, Repr

/-- Why a command fails. -/
inductive CommandError where
  /-- The arguments make no command. -/
  | usage
  /-- The text of the settings cannot be used. -/
  | settings (cause : ReadError)
  /-- A file that belongs to a vault, or the settings file, cannot be used. -/
  | file (path : Path) (cause : FileError)
  /-- The file to be printed cannot be read. -/
  | input (cause : FileError)
  deriving DecidableEq, Repr

/-- What a command came to. -/
structure Report where
  /-- What is reported. -/
  notices : List Notice := []
  /-- What is written out. -/
  output : String := ""
  /-- Why the command failed, if it did. -/
  error? : Option CommandError := none
  /-- The vault that is to be watched from now on, with its settings. -/
  watch? : Option (Path × Settings) := none

namespace CommandError

/-- The ways to call the program. -/
def usageText : String :=
  "Usage: mdnav-watch watch <vault> [--settings <file>]\n" ++
  "       mdnav-watch run <vault> <relative-file> [--settings <file>]\n" ++
  "       mdnav-watch print <file> [--settings <file>]"

/-- How an error is shown, with all its parts. -/
def details : CommandError → String
  | .usage => quoted usageText
  | .settings _ => "Settings"
  | .file path cause =>
    "Io \x7b path: " ++ quoted path.toString ++ ", source: " ++ cause.details ++ " \x7d"
  | .input cause => cause.details

/-- The error for settings that could not be had. -/
def ofSettings : SettingsError → CommandError
  | .text cause => .settings cause
  | .file path cause => .file path cause

end CommandError

/-- The exit code of a command. -/
def Report.code (report : Report) : Nat :=
  if report.error?.isSome then 1 else 0

/-- The option that names the settings file. -/
def settingsOption : String := "--settings"

/-- The arguments, with the settings file taken out. The option that names it asks for a value. -/
def Arguments.ofList : List String → Option Arguments
  | [] => some {}
  | argument :: rest =>
    if argument = settingsOption then
      match rest with
      | [] => none
      | file :: rest => do
        let arguments ← ofList rest
        -- A settings file that is given later wins.
        let settings? := arguments.settings?.getD (.ofString file)
        return { arguments with settings? := some settings? }
    else do
      let arguments ← ofList rest
      return { arguments with positional := argument :: arguments.positional }

/-- The command that the arguments make. -/
def Arguments.command? (arguments : Arguments) : Option Command :=
  match arguments.positional with
  | ["watch", vault] => some (.watch (.ofString vault))
  | ["run", vault, file] => some (.run (.ofString vault) (.ofString file))
  | ["print", file] => some (.print (.ofString file))
  | _ => none

namespace CommandLine

variable {m : Type → Type} [Monad m] [FileSystem m]

/-- What is reported about the outcome for the file that was asked for. -/
def outcomeNotice (file : Path) : Outcome → Notice
  | .updated => ⟨.info, "note updated", [Settings.pathValue file]⟩
  | .unchanged => ⟨.info, "note already up to date", [Settings.pathValue file]⟩
  | .skipped .notMarkdown => ⟨.warn, "no Markdown file given", []⟩
  | .skipped .excluded => ⟨.warn, "folder excluded", [Settings.pathValue file]⟩
  | .skipped .held => ⟨.warn, "note is being written", [Settings.pathValue file]⟩

/-- Brings one note of a vault into shape. -/
def run (settings : Settings) (vault file : Path) : m Report := do
  let keeper := Keeper.ofSettings settings
  let visit ← keeper.process (FileSystem.store m vault) {} 0 file
  let notices := settings.options.notices ++ visit.notices
  match visit.result with
  | .ok outcome => return { notices := notices ++ [outcomeNotice file outcome] }
  | .error error => return { notices, error? := some (.file error.path error.cause) }

/-- Writes out what a note would become. -/
def print (settings : Settings) (file : Path) : m Report := do
  match ← FileSystem.readText file with
  | .error cause => return { error? := some (.input cause) }
  | .ok text =>
    let options := settings.noteOptions
    return {
      notices := settings.options.notices ++ arrangeNotices text file.stem options
      output := arrange text file.stem options }

/-- Makes sure that a vault is there to be watched. -/
def watch (settings : Settings) (vault : Path) : m Report := do
  let notices := settings.options.notices
  match ← FileSystem.find vault with
  | .error cause => return { notices, error? := some (.file vault cause) }
  | .ok () => return { notices, watch? := some (vault, settings) }

/-- Carries out a command. -/
def carryOut (settings : Settings) : Command → m Report
  | .watch vault => watch settings vault
  | .run vault file => run settings vault file
  | .print file => print settings file

/-- Reads the settings and carries out the command that the arguments make. -/
def execute (arguments : List String) : m Report := do
  match Arguments.ofList arguments with
  | none => return { error? := some .usage }
  | some arguments =>
    let (settings, notices) ← Settings.load arguments.settings?
    match settings, arguments.command? with
    | .error cause, _ => return { notices, error? := some (.ofSettings cause) }
    | .ok _, none => return { notices, error? := some .usage }
    | .ok settings, some command =>
      let report ← carryOut settings command
      return { report with notices := notices ++ report.notices }

end CommandLine

/-- The verbosity that a setting of the environment asks for. -/
def Verbosity.ofSetting (setting? : Option String) : Verbosity :=
  (setting?.bind Verbosity.ofText?).getD .default

end Waymark
