import Waymark.CommandLine
import Waymark.Proofs.FileTrees
import Waymark.Proofs.RelativePaths
import Waymark.Proofs.Sessions

/-!
# What the commands do to files

`run` writes into a note what `print` would have written out, although `run` names the note by its
path within the vault and `print` by the whole path. Nothing else happens to any file: only a `run`
that reports its note as updated changes anything, and it changes that note alone.

A file system may refuse to read or write a path for reasons that the tree of its files does not
show. Everything here holds whatever is refused, as long as a refusal changes nothing.

## Main definitions

* `Refusals` — what is refused, and the file system of file trees with these refusals
* `Report.EndsWith` — how a `run` ended
* `CommandLine.executeOn`, `CommandLine.Asks` — what the arguments come to, and what they ask for
* `CommandLine.Running` — what comes of a `run`, case by case
* `CommandLine.Accords` — the commands agree, and nothing else is touched

## Main results

* `Path.stem_join` — a note has the same stem under the whole path
* `CommandLine.running_run` — every `run` is one of the cases
* `CommandLine.accords_executeOn` — the commands accord on every file tree
-/

namespace Waymark

/-! ### What commands come to on a file tree -/

/-- What a file system refuses, whatever its files are. -/
structure Refusals where
  /-- Why nothing is learned about a path, if nothing is. -/
  reads : Path → Option FileError := fun _ => none
  /-- Why a path cannot be written, if it cannot. -/
  writes : Path → Option FileError := fun _ => none

namespace Refusals

/-- What reading a path comes to. -/
def read (refusals : Refusals) (tree : FileTree) (path : Path) : Except FileError String :=
  match refusals.reads path with
  | some cause => .error cause
  | none => tree.read path

/-- What writing a path comes to, and the tree afterwards. A refusal changes nothing. -/
def write (refusals : Refusals) (tree : FileTree) (path : Path) (text : String) :
    Except FileError Unit × FileTree :=
  match refusals.writes path with
  | some cause => (.error cause, tree)
  | none => tree.write path text

/-- What looking for a path comes to. -/
def find (refusals : Refusals) (tree : FileTree) (path : Path) : Except FileError Unit :=
  match refusals.reads path with
  | some cause => .error cause
  | none => tree.find path

/-- File trees as a file system with the given refusals. -/
@[reducible]
def fileSystem (refusals : Refusals) : FileSystem (StateM FileTree) where
  readText path := fun tree => (refusals.read tree path, tree)
  writeText path text := fun tree => refusals.write tree path text
  find path := fun tree => (refusals.find tree path, tree)

end Refusals

/-- The report says that a `run` ended well, with the given outcome for its file. -/
def Report.EndsWith (report : Report) (file : Path) (outcome : Outcome) : Prop :=
  report.error? = none ∧ report.notices.getLast? = some (CommandLine.outcomeNotice file outcome)

/-- The report behind some other notices. -/
def Report.behind (report : Report) (notices : List Notice) : Report :=
  { report with notices := notices ++ report.notices }

namespace CommandLine

/-- What the arguments come to on a file tree: the report, and the tree afterwards. -/
def executeOn (refusals : Refusals) (arguments : List String) (tree : FileTree) :
    Report × FileTree :=
  (@execute (StateM FileTree) _ refusals.fileSystem arguments).run tree

/-- The settings that are read from a file tree, with what is reported about them. -/
def loadOn (refusals : Refusals) (tree : FileTree) (settings? : Option Path) :
    Except SettingsError Settings × List Notice :=
  ((@Settings.load (StateM FileTree) _ refusals.fileSystem settings?).run tree).1

/-- What a command comes to on a file tree: the report, and the tree afterwards. -/
def carryOutOn (refusals : Refusals) (tree : FileTree) (settings : Settings) (command : Command) :
    Report × FileTree :=
  (@carryOut (StateM FileTree) _ refusals.fileSystem settings command).run tree

/-- The arguments ask for a command, with a settings file or none. -/
def Asks (arguments : List String) (settings? : Option Path) (command : Command) : Prop :=
  ∃ given, Arguments.ofList arguments = some given ∧ given.settings? = settings? ∧
    given.command? = some command

/-- What comes of a `run` on a tree, case by case: the report, and the tree afterwards. -/
inductive Running (refusals : Refusals) (tree : FileTree) (settings : Settings)
    (vault file : Path) : Report × FileTree → Prop
  /-- The file is passed over. -/
  | skipped (report : Report) (reason : SkipReason)
      (hends : report.EndsWith file (.skipped reason))
      (hpassed : ¬ (Keeper.isMarkdown file = true ∧
        settings.isExcluded file.vaultText = false)) :
      Running refusals tree settings vault file (report, tree)
  /-- The note cannot be read. -/
  | unread (report : Report) (cause : FileError) (hfails : report.error? ≠ none)
      (hread : refusals.read tree (vault.join file) = .error cause) :
      Running refusals tree settings vault file (report, tree)
  /-- The note is refused to be written. -/
  | unwritten (report : Report) (hfails : report.error? ≠ none)
      (hrefused : refusals.writes (vault.join file) ≠ none) :
      Running refusals tree settings vault file (report, tree)
  /-- The note is as it should be. -/
  | unchanged (report : Report) (old : String) (hends : report.EndsWith file .unchanged)
      (hmarkdown : Keeper.isMarkdown file = true)
      (hread : refusals.read tree (vault.join file) = .ok old)
      (hsame : arrange old file.stem settings.noteOptions = old) :
      Running refusals tree settings vault file (report, tree)
  /-- The note is written. -/
  | updated (report : Report) (after : FileTree) (old : String)
      (hends : report.EndsWith file .updated) (hmarkdown : Keeper.isMarkdown file = true)
      (hread : refusals.read tree (vault.join file) = .ok old)
      (hwrite : refusals.write tree (vault.join file)
        (arrange old file.stem settings.noteOptions) = (.ok (), after)) :
      Running refusals tree settings vault file (report, after)

/-- The commands agree, and nothing else is touched: `result` is what the arguments come to on the
tree. -/
structure Accords (refusals : Refusals) (arguments : List String) (tree : FileTree)
    (result : Report × FileTree) : Prop where
  /-- If a `run` leaves its note updated or unchanged, the note has the text that `print` of the
  whole path, with the same settings, would have written out on the tree as it was. -/
  agrees : ∀ settings? vault file printing, Asks arguments settings? (.run vault file) →
    result.1.EndsWith file .updated ∨ result.1.EndsWith file .unchanged →
    Asks printing settings? (.print (vault.join file)) →
      (executeOn refusals printing tree).1.error? = none ∧
        result.2.read (vault.join file) = .ok (executeOn refusals printing tree).1.output
  /-- A `run` ends in one of these two ways if its file is a Markdown file in no excluded folder
  that can be read and is not refused to be written. -/
  ends : ∀ settings? vault file settings notices old,
    Asks arguments settings? (.run vault file) →
    loadOn refusals tree settings? = (.ok settings, notices) →
    Keeper.isMarkdown file = true → settings.isExcluded file.vaultText = false →
    refusals.read tree (vault.join file) = .ok old → refusals.writes (vault.join file) = none →
      result.1.EndsWith file .updated ∨ result.1.EndsWith file .unchanged
  /-- A `run` changes no other file. -/
  apart : ∀ settings? vault file, Asks arguments settings? (.run vault file) →
    FileTree.AgreeApartFrom (vault.join file) tree result.2
  /-- Only a `run` that reports its note as updated changes any file at all: no `print` does, no
  `run` that passes the file over or fails, and no call with wrong arguments or settings. -/
  changes : result.2 ≠ tree → ∃ settings? vault file,
    Asks arguments settings? (.run vault file) ∧ result.1.EndsWith file .updated

end CommandLine

variable {refusals : Refusals} {tree after : FileTree} {path vault file : Path}
variable {arguments : List String} {settings? : Option Path} {settings : Settings}
variable {command : Command} {report : Report} {notices : List Notice}
variable {outcome : Outcome} {cause : FileError} {text old : String}

/-! ### File names below a root -/

namespace Path

variable {root path : Path} {name : List Char}

/-- The segments of a path stand at the end of those of the path below a root. -/
theorem exists_segments_join (root path : Path) :
    ∃ above, (root.join path).segments = above ++ path.segments := by
  by_cases hstays : path.isAbsolute = true ∨ root.text = []
  · exact ⟨[], by simp [join, hstays]⟩
  · rw [not_or, Bool.not_eq_true] at hstays
    obtain ⟨first, rest, more, -, -, hjoin⟩ :=
      exists_segments_join_of_relative hstays.2 hstays.1
    exact ⟨first :: rest, hjoin⟩

theorem fileName?_eq_some_iff :
    path.fileName? = some name ↔ path.components.getLast? = some (.name name) := by
  unfold fileName?
  split
  next text hlast => simp [hlast]
  next hlast =>
    constructor
    · intro hname
      cases hname
    · intro hname
      exact absurd hname (hlast name)

/-- A name at the front of a path is a segment that counts wherever it stands. -/
theorem of_getLast?_frontComponent {first : List Char} {rest : List (List Char)}
    (hname : (frontComponent first rest).getLast? = some (.name name)) :
    isSkipped first = false ∧ Component.ofSegment first = .name name := by
  unfold frontComponent at hname
  split at hname
  · split at hname <;> cases hname
  next hfirst =>
    have hsegment : Component.ofSegment first = .name name := Option.some.inj hname
    refine ⟨?_, hsegment⟩
    have hhere : first ≠ ['.'] := by
      rintro rfl
      cases hsegment
    simpa [isSkipped, hhere] using hfirst

/-- A file name is found whatever segments stand before the path. -/
theorem fileName?_of_segments {above : List (List Char)} {other : Path}
    (hsegments : other.segments = above ++ path.segments) (hname : path.fileName? = some name) :
    other.fileName? = some name := by
  rw [fileName?_eq_some_iff] at hname ⊢
  cases above with
  | nil => simpa [components, hsegments] using hname
  | cons front more =>
    cases hpath : path.segments with
    | nil => exact absurd hpath (List.splitOn_ne_nil _ _)
    | cons first rest =>
      simp only [components, hpath] at hname
      simp only [components, hsegments, hpath, List.cons_append]
      rw [List.append_cons, List.filter_append, List.map_append, ← List.append_assoc]
      -- The name is the last segment that counts: behind the first one, or the first one itself.
      obtain hcounted | ⟨init, last, hcounted⟩ :=
        List.eq_nil_or_concat (rest.filter (!isSkipped ·))
      · rw [hcounted, List.map_nil, List.append_nil] at hname ⊢
        obtain ⟨hfirst, hsegment⟩ := of_getLast?_frontComponent hname
        simp [hfirst, hsegment]
      · simpa [hcounted] using hname

/-- The stem of a file is that of its path below any root. -/
theorem stem_join (hname : path.fileName?.isSome) : (root.join path).stem = path.stem := by
  obtain ⟨name, hname⟩ := Option.isSome_iff_exists.mp hname
  obtain ⟨above, hsegments⟩ := exists_segments_join root path
  rw [stem, stem, fileName?_of_segments hsegments hname, hname]

end Path

theorem Keeper.isSome_fileName?_of_isMarkdown {path : Path} (h : isMarkdown path = true) :
    path.fileName?.isSome := by
  cases hname : path.fileName? with
  | none => simp [isMarkdown, Path.extension?, hname] at h
  | some name => rfl

/-! ### Reading and writing -/

namespace Refusals

theorem read_of_read_eq_ok (hread : refusals.read tree path = .ok text) :
    tree.read path = .ok text := by
  unfold read at hread
  split at hread
  · cases hread
  · exact hread

theorem write_of_write_eq_ok (hwrite : refusals.write tree path text = (.ok (), after)) :
    tree.write path text = (.ok (), after) := by
  unfold write at hwrite
  split at hwrite
  · cases (Prod.mk.inj hwrite).1
  · exact hwrite

/-- Writing that fails changes nothing, whether it was refused or the path cannot be written. -/
theorem eq_of_write_eq_error (hwrite : refusals.write tree path text = (.error cause, after)) :
    after = tree := by
  unfold write at hwrite
  split at hwrite
  · exact (Prod.mk.inj hwrite).2.symm
  · unfold FileTree.write at hwrite
    split at hwrite
    · cases (Prod.mk.inj hwrite).1
    · exact (Prod.mk.inj hwrite).2.symm

/-- Where a file can be read, nothing but a refusal keeps it from being written. -/
theorem writes_ne_none (hread : refusals.read tree path = .ok old)
    (hwrite : refusals.write tree path text = (.error cause, after)) :
    refusals.writes path ≠ none := by
  intro hnone
  obtain ⟨after', hwrite', -⟩ := FileTree.write_of_read (read_of_read_eq_ok hread) text
  simp only [write, hnone, hwrite'] at hwrite
  cases (Prod.mk.inj hwrite).1

/-- A file that was read and then written reads as it was written, and nothing else changes. -/
theorem of_write_eq_ok (hread : refusals.read tree path = .ok old)
    (hwrite : refusals.write tree path text = (.ok (), after)) :
    after.read path = .ok text ∧ FileTree.AgreeApartFrom path tree after := by
  obtain ⟨after', hwrite', hafter⟩ := FileTree.write_of_read (read_of_read_eq_ok hread) text
  obtain rfl : after = after' :=
    congrArg Prod.snd ((write_of_write_eq_ok hwrite).symm.trans hwrite')
  exact hafter

end Refusals

/-! ### The settings and the command -/

namespace CommandLine

theorem run_load (refusals : Refusals) (tree : FileTree) (settings? : Option Path) :
    (@Settings.load (StateM FileTree) _ refusals.fileSystem settings?).run tree =
      (loadOn refusals tree settings?, tree) := by
  cases settings? with
  | none => rfl
  | some path =>
    have hreading : refusals.fileSystem.readText path tree = (refusals.read tree path, tree) := rfl
    simp only [loadOn, Settings.load, StateT.run, bind, StateT.bind, hreading]
    cases refusals.read tree path with
    | error cause => cases cause <;> rfl
    | ok text =>
      dsimp only
      cases Settings.ofText text <;> rfl

theorem Asks.unique {otherSettings? : Option Path} {other : Command}
    (hasks : Asks arguments settings? command) (hother : Asks arguments otherSettings? other) :
    settings? = otherSettings? ∧ command = other := by
  obtain ⟨given, hgiven, rfl, hcommand⟩ := hasks
  obtain ⟨given', hgiven', rfl, hcommand'⟩ := hother
  obtain rfl : given = given' := Option.some.inj (hgiven.symm.trans hgiven')
  exact ⟨rfl, Option.some.inj (hcommand.symm.trans hcommand')⟩

/-- A command is carried out with the settings that are read. -/
theorem executeOn_of_asks (hasks : Asks arguments settings? command)
    (hsettings : loadOn refusals tree settings? = (.ok settings, notices)) :
    executeOn refusals arguments tree =
      ((carryOutOn refusals tree settings command).1.behind notices,
        (carryOutOn refusals tree settings command).2) := by
  obtain ⟨given, hgiven, rfl, hcommand⟩ := hasks
  have hload := run_load refusals tree given.settings?
  rw [hsettings] at hload
  simp only [executeOn, execute, hgiven, StateT.run_bind, hload, hcommand]
  rfl

/-- Either the arguments fail before anything is done, or they ask for a command and the settings
are read. -/
theorem executeOn_fails_or (refusals : Refusals) (arguments : List String) (tree : FileTree) :
    ((executeOn refusals arguments tree).1.error? ≠ none ∧
        (executeOn refusals arguments tree).2 = tree) ∨
      ∃ settings? command settings notices, Asks arguments settings? command ∧
        loadOn refusals tree settings? = (.ok settings, notices) := by
  -- What fails is an option without its value, settings that cannot be had, or no command.
  cases hgiven : Arguments.ofList arguments with
  | none =>
    left
    simp only [executeOn, execute, hgiven]
    exact ⟨Option.some_ne_none _, rfl⟩
  | some given =>
    rcases hsettings : loadOn refusals tree given.settings? with ⟨loaded, notices⟩
    have hload := run_load refusals tree given.settings?
    rw [hsettings] at hload
    cases loaded with
    | error cause =>
      left
      simp only [executeOn, execute, hgiven, StateT.run_bind, hload]
      exact ⟨Option.some_ne_none _, rfl⟩
    | ok settings =>
      cases hcommand : given.command? with
      | none =>
        left
        simp only [executeOn, execute, hgiven, StateT.run_bind, hload, hcommand]
        exact ⟨Option.some_ne_none _, rfl⟩
      | some command =>
        exact .inr ⟨_, command, settings, notices, ⟨given, hgiven, rfl, hcommand⟩, hsettings⟩

/-! ### One command -/

/-- Every `run` is one of the cases. -/
theorem running_run (refusals : Refusals) (tree : FileTree) (settings : Settings)
    (vault file : Path) : Running refusals tree settings vault file
      (carryOutOn refusals tree settings (.run vault file)) := by
  -- What the file system is called for is computed call by call, and each answer splits the cases.
  rcases hskip : (Keeper.ofSettings settings).skipReason? {} 0 file with ⟨reason?, holds⟩
  simp only [carryOutOn, carryOut, run, Keeper.process, hskip]
  cases reason? with
  | some reason =>
    refine .skipped _ reason ⟨rfl, List.getLast?_concat⟩ ?_
    rintro ⟨hmarkdown, hincluded⟩
    have hnone : ((Keeper.ofSettings settings).skipReason? {} 0 file).1 = none :=
      Keeper.skipReason?_eq_none_iff.mpr ⟨hmarkdown, hincluded, rfl⟩
    rw [hskip] at hnone
    cases hnone
  | none =>
    have hmarkdown : Keeper.isMarkdown file = true :=
      (Keeper.skipReason?_eq_none_iff.mp (congrArg Prod.fst hskip)).1
    have hreading : refusals.fileSystem.readText (vault.join file) tree =
        (refusals.read tree (vault.join file), tree) := rfl
    simp only [FileSystem.store, StateT.run, bind, StateT.bind, hreading]
    cases hread : refusals.read tree (vault.join file) with
    | error cause => exact .unread _ cause (Option.some_ne_none _) hread
    | ok old =>
      by_cases hsame : (Keeper.ofSettings settings).arranged file old = old
      · simp only [if_pos hsame]
        exact .unchanged _ old ⟨rfl, List.getLast?_concat⟩ hmarkdown hread hsame
      · have hwriting : ∀ text, refusals.fileSystem.writeText (vault.join file) text tree =
            refusals.write tree (vault.join file) text := fun _ => rfl
        rcases hwrite : refusals.write tree (vault.join file)
          ((Keeper.ofSettings settings).arranged file old) with ⟨written, after⟩
        simp only [if_neg hsame, StateT.bind, hwriting, hwrite]
        cases written with
        | error cause =>
          obtain rfl : after = tree := Refusals.eq_of_write_eq_error hwrite
          exact .unwritten _ (Option.some_ne_none _) (Refusals.writes_ne_none hread hwrite)
        | ok done => exact .updated _ after old ⟨rfl, List.getLast?_concat⟩ hmarkdown hread hwrite

theorem carryOutOn_print (hread : refusals.read tree path = .ok text) :
    (carryOutOn refusals tree settings (.print path)).1.error? = none ∧
      (carryOutOn refusals tree settings (.print path)).1.output =
        arrange text path.stem settings.noteOptions := by
  have hreading : refusals.fileSystem.readText path tree = (refusals.read tree path, tree) := rfl
  simp only [carryOutOn, carryOut, print, StateT.run, bind, StateT.bind, hreading, hread]
  exact ⟨rfl, rfl⟩

/-- A command that is no `run` changes nothing. -/
theorem snd_carryOutOn_or (refusals : Refusals) (tree : FileTree) (settings : Settings)
    (command : Command) : (carryOutOn refusals tree settings command).2 = tree ∨
      ∃ vault file, command = .run vault file := by
  cases command with
  | run vault file => exact .inr ⟨vault, file, rfl⟩
  | print file =>
    left
    have hreading : refusals.fileSystem.readText file tree = (refusals.read tree file, tree) := rfl
    simp only [carryOutOn, carryOut, print, StateT.run, bind, StateT.bind, hreading]
    cases refusals.read tree file <;> rfl
  | watch vault =>
    left
    have hfinding : refusals.fileSystem.find vault tree = (refusals.find tree vault, tree) := rfl
    simp only [carryOutOn, carryOut, watch, StateT.run, bind, StateT.bind, hfinding]
    cases refusals.find tree vault <;> rfl

/-- A file that is passed over is warned of. -/
theorem level_outcomeNotice_skipped (file : Path) (reason : SkipReason) :
    (outcomeNotice file (.skipped reason)).level = .warn := by
  cases reason <;> rfl

end CommandLine

/-! ### How a `run` ended -/

/-- A `run` that passed its file over did not end with its note updated or unchanged. -/
theorem Report.EndsWith.of_skipped {reason : SkipReason}
    (h : report.EndsWith file (.skipped reason)) :
    ¬ (report.EndsWith file .updated ∨ report.EndsWith file .unchanged) := by
  have hlevel := CommandLine.level_outcomeNotice_skipped file reason
  rintro (hends | hends)
  · rw [Option.some.inj (h.2.symm.trans hends.2)] at hlevel
    cases hlevel
  · rw [Option.some.inj (h.2.symm.trans hends.2)] at hlevel
    cases hlevel

/-- A `run` ends as it does whatever was reported before. -/
theorem Report.EndsWith.behind (h : report.EndsWith file outcome) (notices : List Notice) :
    (report.behind notices).EndsWith file outcome := by
  refine ⟨h.1, ?_⟩
  rw [Report.behind, List.getLast?_append, h.2, Option.some_or]

namespace CommandLine

theorem Running.behind (notices : List Notice)
    (h : Running refusals tree settings vault file (report, after)) :
    Running refusals tree settings vault file (report.behind notices, after) := by
  cases h with
  | skipped _ reason hends hpassed => exact .skipped _ reason (hends.behind notices) hpassed
  | unread _ cause hfails hread => exact .unread _ cause hfails hread
  | unwritten _ hfails hrefused => exact .unwritten _ hfails hrefused
  | unchanged _ old hends hmarkdown hread hsame =>
    exact .unchanged _ old (hends.behind notices) hmarkdown hread hsame
  | updated _ _ old hends hmarkdown hread hwrite =>
    exact .updated _ after old (hends.behind notices) hmarkdown hread hwrite

/-- A `run` that leaves its note updated or unchanged leaves it with the arranged text. -/
theorem Running.read_eq_arrange {result : Report × FileTree}
    (h : Running refusals tree settings vault file result)
    (hends : result.1.EndsWith file .updated ∨ result.1.EndsWith file .unchanged) :
    Keeper.isMarkdown file = true ∧ ∃ old, refusals.read tree (vault.join file) = .ok old ∧
      result.2.read (vault.join file) = .ok (arrange old file.stem settings.noteOptions) := by
  cases h with
  | skipped _ reason hskipped => exact absurd hends hskipped.of_skipped
  | unread _ cause hfails => exact absurd (hends.elim And.left And.left) hfails
  | unwritten _ hfails => exact absurd (hends.elim And.left And.left) hfails
  | unchanged _ old _ hmarkdown hread hsame =>
    refine ⟨hmarkdown, old, hread, ?_⟩
    rw [hsame]
    exact Refusals.read_of_read_eq_ok hread
  | updated _ after old _ hmarkdown hread hwrite =>
    exact ⟨hmarkdown, old, hread, (Refusals.of_write_eq_ok hread hwrite).1⟩

/-- A `run` changes nothing but its note. -/
theorem Running.agreeApartFrom {result : Report × FileTree}
    (h : Running refusals tree settings vault file result) :
    FileTree.AgreeApartFrom (vault.join file) tree result.2 := by
  cases h with
  | skipped | unread | unwritten | unchanged => exact .refl _ tree
  | updated _ after old _ _ hread hwrite => exact (Refusals.of_write_eq_ok hread hwrite).2

/-- A `run` that changes its note says so. -/
theorem Running.eq_or_endsWith {result : Report × FileTree}
    (h : Running refusals tree settings vault file result) :
    result.2 = tree ∨ result.1.EndsWith file .updated := by
  cases h with
  | skipped | unread | unwritten | unchanged => exact .inl rfl
  | updated _ after old hends => exact .inr hends

/-- A `run` that takes up its file, and may read and write it, ends well. -/
theorem Running.endsWith {result : Report × FileTree}
    (h : Running refusals tree settings vault file result)
    (hmarkdown : Keeper.isMarkdown file = true)
    (hincluded : settings.isExcluded file.vaultText = false)
    (hread : refusals.read tree (vault.join file) = .ok old)
    (hwrites : refusals.writes (vault.join file) = none) :
    result.1.EndsWith file .updated ∨ result.1.EndsWith file .unchanged := by
  cases h with
  | skipped _ reason _ hpassed => exact absurd ⟨hmarkdown, hincluded⟩ hpassed
  | unread _ cause _ hread' => cases hread.symm.trans hread'
  | unwritten _ _ hrefused => exact absurd hwrites hrefused
  | unchanged _ _ hends => exact .inr hends
  | updated _ _ _ hends => exact .inl hends

/-! ### All commands -/

theorem running_of_asks (hasks : Asks arguments settings? (.run vault file))
    (hsettings : loadOn refusals tree settings? = (.ok settings, notices)) :
    Running refusals tree settings vault file (executeOn refusals arguments tree) := by
  rw [executeOn_of_asks hasks hsettings]
  exact (running_run refusals tree settings vault file).behind notices

/-- Arguments that ask for a `run` come to one of its cases, unless the settings cannot be had. -/
theorem fails_or_running (refusals : Refusals) (tree : FileTree)
    (hasks : Asks arguments settings? (.run vault file)) :
    ((executeOn refusals arguments tree).1.error? ≠ none ∧
        (executeOn refusals arguments tree).2 = tree) ∨
      ∃ settings notices, loadOn refusals tree settings? = (.ok settings, notices) ∧
        Running refusals tree settings vault file (executeOn refusals arguments tree) := by
  rcases executeOn_fails_or refusals arguments tree with
    hfails | ⟨_, _, settings, notices, hasks', hsettings⟩
  · exact .inl hfails
  · obtain ⟨rfl, rfl⟩ := hasks.unique hasks'
    exact .inr ⟨settings, notices, hsettings, running_of_asks hasks hsettings⟩

/-- What `print` writes out for a file that can be read. -/
theorem executeOn_of_asks_print (hasks : Asks arguments settings? (.print path))
    (hsettings : loadOn refusals tree settings? = (.ok settings, notices))
    (hread : refusals.read tree path = .ok text) :
    (executeOn refusals arguments tree).1.error? = none ∧
      (executeOn refusals arguments tree).1.output =
        arrange text path.stem settings.noteOptions := by
  rw [executeOn_of_asks hasks hsettings]
  exact carryOutOn_print hread

/-- The commands agree on every file tree, and nothing else is touched. -/
theorem accords_executeOn (refusals : Refusals) (arguments : List String) (tree : FileTree) :
    Accords refusals arguments tree (executeOn refusals arguments tree) where
  agrees settings? vault file printing hasks hends hprinting := by
    rcases fails_or_running refusals tree hasks with
      ⟨hfails, -⟩ | ⟨settings, notices, hsettings, hrunning⟩
    · exact absurd (hends.elim And.left And.left) hfails
    obtain ⟨hmarkdown, old, hread, hafter⟩ := hrunning.read_eq_arrange hends
    obtain ⟨hprinted, houtput⟩ := executeOn_of_asks_print hprinting hsettings hread
    -- `print` takes the stem from the whole path, which ends in the same file name.
    rw [Path.stem_join (Keeper.isSome_fileName?_of_isMarkdown hmarkdown)] at houtput
    exact ⟨hprinted, houtput ▸ hafter⟩
  ends settings? vault file settings notices old hasks hsettings hmarkdown hincluded hread
      hwrites :=
    (running_of_asks hasks hsettings).endsWith hmarkdown hincluded hread hwrites
  apart settings? vault file hasks := by
    rcases fails_or_running refusals tree hasks with ⟨-, hafter⟩ | ⟨_, _, -, hrunning⟩
    · rw [hafter]
      exact .refl _ tree
    · exact hrunning.agreeApartFrom
  changes hne := by
    rcases executeOn_fails_or refusals arguments tree with
      ⟨-, hafter⟩ | ⟨settings?, command, settings, notices, hasks, hsettings⟩
    · exact absurd hafter hne
    rcases snd_carryOutOn_or refusals tree settings command with hafter | ⟨vault, file, rfl⟩
    · rw [executeOn_of_asks hasks hsettings] at hne
      exact absurd hafter hne
    · have hends := (running_of_asks hasks hsettings).eq_or_endsWith.resolve_left hne
      exact ⟨settings?, vault, file, hasks, hends⟩

/-- A vault with one note below the root, and a settings file in the working folder. -/
def vaultOfOneNote : FileTree where
  files := [([['v'], "a.md".toList], "## One\n## Two".toUTF8),
    ([['w'], "s.json".toList], "\x7b\"footerLevels\": []\x7d".toUTF8)]
  folders := [[['v']]]
  workFolder := [['w']]

/-- Where the vault is named by an absolute path, and the settings file by a relative one. -/
theorem accords_executeOn_oneNote :
    (executeOn {} ["run", "/v", "a.md", "--settings", "s.json"] vaultOfOneNote).1.EndsWith
        (.ofString "a.md") .updated ∧
      (executeOn {} ["run", "/v", "a.md", "--settings", "s.json"] vaultOfOneNote).2.read
          (.ofString "/v/a.md") =
        .ok (executeOn {} ["--settings", "s.json", "print", "/v/a.md"]
          vaultOfOneNote).1.output := by
  have hasks : Asks ["run", "/v", "a.md", "--settings", "s.json"] (some (.ofString "s.json"))
      (.run (.ofString "/v") (.ofString "a.md")) := ⟨_, rfl, rfl, rfl⟩
  have hprinting : Asks ["--settings", "s.json", "print", "/v/a.md"] (some (.ofString "s.json"))
      (.print ((Path.ofString "/v").join (.ofString "a.md"))) := ⟨_, rfl, rfl, rfl⟩
  have hends : (executeOn {} ["run", "/v", "a.md", "--settings", "s.json"]
      vaultOfOneNote).1.EndsWith (.ofString "a.md") .updated := by
    constructor <;> decide +kernel
  exact ⟨hends, ((accords_executeOn {} _ vaultOfOneNote).agrees _ _ _ _ hasks (.inl hends)
    hprinting).2⟩

end CommandLine

end Waymark
