import Waymark.CommandLine
import Waymark.Vault.Change

/-!
# The program

The outermost layer: the command line on real files. It reads and writes files, prints
what a command came to, and watches a vault by looking at its files from time to time.
-/

namespace Waymark.Program

/-- The cause behind an error of the file system. -/
def causeOf (error : IO.Error) : FileError :=
  match error with
  | .noFileOrDirectory _ _ _ => .notFound
  | .permissionDenied _ _ _ => .denied
  | .invalidArgument _ number _ =>
    if number.toNat == 36 then .nameTooLong else .other error.toString
  | .inappropriateType _ number _ => if number.toNat == 20 then .notFolder else .isFolder
  | error => .other error.toString

/-- An action on files, with the cause of its failure. -/
def attempt {α : Type} (action : IO α) : IO (Except FileError α) := do
  try return .ok (← action)
  catch error => return .error (causeOf error)

instance : FileSystem IO where
  readText path := do
    match ← attempt (IO.FS.readBinFile path.toString) with
    | .error cause => return .error cause
    | .ok bytes => return (String.fromUTF8? bytes).elim (.error .invalidText) .ok
  writeText path text := attempt (IO.FS.writeFile path.toString text)
  find path := do return (← attempt (IO.FS.realPath path.toString)).map fun _ => ()

/-- Prints the notices that the verbosity lets through. -/
def printNotices (verbosity : Verbosity) (notices : List Notice) : IO Unit :=
  IO.eprint (verbosity.print notices)

/-- The files below a folder, each with the time of its last change. -/
def fileTimes (vault : Path) : IO (List (Path × IO.FS.SystemTime)) := do
  let root ← IO.FS.realPath vault.toString
  let mut times := []
  for file in ← root.walkDir do
    if let .ok info ← attempt file.metadata then
      if info.type matches .file then times := (.ofString file.toString, info.modified) :: times
  return times

/-- The changes between two looks at the files of a vault. -/
def changesBetween (before after : List (Path × IO.FS.SystemTime)) : List ChangeEvent :=
  after.filterMap fun (path, time) =>
    match before.find? (·.1.same path) with
    | none => some (.change .create [path])
    | some (_, earlier) => if earlier == time then none else some (.change .modify [path])

/-- Processes the changed notes of a vault, and returns the holds afterwards. -/
def processBatch (verbosity : Verbosity) (keeper : Keeper) (vault root : Path) (holds : Holds)
    (batch : List Path) : IO Holds := do
  let mut holds := holds
  for path in batch do
    if let some inner := root.relativeTo? path then
      let visit ← keeper.process (FileSystem.store IO vault) holds (← IO.monoMsNow) inner
      printNotices verbosity visit.notices
      holds := visit.holds
      if let .error error := visit.result then
        printNotices verbosity [⟨.warn, "failed to process note",
          [Settings.pathValue inner, ("error", error.message)]⟩]
  return holds

/-- Watches a vault until the program is stopped. -/
partial def watch (verbosity : Verbosity) (settings : Settings) (vault : Path) : IO Unit := do
  let root : Path := .ofString (← IO.FS.realPath vault.toString).toString
  printNotices verbosity [⟨.info, "watching vault",
    [("root", root.toString), ("debounce_ms", toString settings.debounce)]⟩]
  let rec look (holds : Holds) (before : List (Path × IO.FS.SystemTime)) : IO Unit := do
    IO.sleep (max settings.debounce 50).toUInt32
    let after ← fileTimes vault
    let mut holds := holds
    for batch in batches [changesBetween before after] do
      holds ← processBatch verbosity (.ofSettings settings) vault root holds batch
    look holds after
  look {} (← fileTimes vault)

end Waymark.Program

open Waymark in
/-- Carries out the command that the arguments make. -/
def main (arguments : List String) : IO UInt32 := do
  let verbosity := Verbosity.ofSetting (← IO.getEnv "MDNAV_LOG")
  let report : Report ← CommandLine.execute arguments
  Program.printNotices verbosity report.notices
  IO.print report.output
  if let some error := report.error? then
    IO.eprintln ("Error: " ++ error.details)
  if let some (vault, settings) := report.watch? then
    Program.watch verbosity settings vault
  return report.code.toUInt32
