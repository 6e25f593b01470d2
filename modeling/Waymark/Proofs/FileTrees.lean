import Waymark.Vault.FileTree

/-!
# Laws of file trees

A file that can be read can be written, at the place where it was read, and reads back as
it was written. The writing is seen nowhere else: every path leads where it led, and every
other file has the content that it had.

## Main definitions

* `FileTree.AgreeApartFrom` — two trees differ at most in one file

## Main results

* `FileTree.writePlace_of_resolve` — a path is written where it leads to
* `FileTree.write_of_read` — what writing a file that can be read comes to
-/

namespace Waymark.FileTree

/-- The trees differ at most in the content of the file that the path leads to. -/
structure AgreeApartFrom (path : Path) (tree after : FileTree) : Prop where
  /-- There are the same folders. -/
  folders_eq : after.folders = tree.folders
  /-- The working folder is the same. -/
  workFolder_eq : after.workFolder = tree.workFolder
  /-- Every path leads to where it led. -/
  resolve_eq : ∀ other, after.resolve other = tree.resolve other
  /-- At every other place there is the same file or none, as before. -/
  file?_eq : ∀ place, tree.resolve path ≠ .ok (.file place) →
    after.file? place = tree.file? place

theorem AgreeApartFrom.refl (path : Path) (tree : FileTree) : AgreeApartFrom path tree tree :=
  ⟨rfl, rfl, fun _ => rfl, fun _ _ => rfl⟩

variable {tree : FileTree} {place other : Place} {content : ByteArray} {path : Path}
variable {target : Target} {segment : List Char} {segments : List (List Char)}
variable {text old : String}

/-! ### A file with another content -/

theorem isFolder_setFile : (tree.setFile place content).isFolder other = tree.isFolder other :=
  rfl

theorem startOf_setFile : (tree.setFile place content).startOf path = tree.startOf path :=
  rfl

theorem file?_setFile_self : (tree.setFile place content).file? place = some content := by
  have hgone : (tree.files.filter fun file => file.1 != place).find?
      (fun file => file.1 == place) = none := by
    simp [List.find?_eq_none]
  simp [file?, setFile, List.find?_append, hgone]

theorem file?_setFile_of_ne (hne : other ≠ place) :
    (tree.setFile place content).file? other = tree.file? other := by
  have hkeep : (tree.files.filter fun file => file.1 != place).find?
      (fun file => file.1 == other) = tree.files.find? fun file => file.1 == other := by
    -- The file that gives way is at the one place, so it is not the file looked for.
    rw [List.find?_filter]
    congr 1
    funext file
    by_cases hfile : file.1 = other <;> simp [hfile, hne]
  simp [file?, setFile, List.find?_append, hkeep, hne.symm]

theorem isSome_file?_setFile (hfile : (tree.file? place).isSome) :
    ((tree.setFile place content).file? other).isSome = (tree.file? other).isSome := by
  by_cases hother : other = place
  · rw [hother, file?_setFile_self, hfile, Option.isSome_some]
  · rw [file?_setFile_of_ne hother]

theorem step_setFile (hfile : (tree.file? place).isSome) :
    (tree.setFile place content).step target segment = tree.step target segment := by
  cases target <;> simp only [step, isFolder_setFile, isSome_file?_setFile hfile]

theorem follow_setFile (hfile : (tree.file? place).isSome) :
    (tree.setFile place content).follow target segments = tree.follow target segments := by
  induction segments generalizing target with
  | nil => rfl
  | cons segment rest ih => simp only [follow, step_setFile hfile, ih]

/-- Where there is a file, another content of it leads no path elsewhere. -/
theorem resolve_setFile (hfile : (tree.file? place).isSome) (other : Path) :
    (tree.setFile place content).resolve other = tree.resolve other := by
  simp only [resolve, startOf_setFile, follow_setFile hfile]

/-! ### Where a path leads to -/

theorem follow_append (above below : List (List Char)) :
    tree.follow target (above ++ below) =
      (tree.follow target above).bind fun next => tree.follow next below := by
  induction above generalizing target with
  | nil => rfl
  | cons segment rest ih =>
    cases hstep : tree.step target segment with
    | error cause => simp [follow, hstep, bind, Except.bind]
    | ok next =>
      simpa [follow, hstep, bind, Except.bind] using @ih next

/-- A file is only entered from its folder, by a segment that is a file name. -/
theorem exists_of_step_eq_file (hstep : tree.step target segment = .ok (.file place)) :
    ∃ folder, target = .folder folder ∧ place = folder ++ [segment] ∧
      Path.isSkipped segment = false ∧ segment ≠ ['.', '.'] ∧
        Path.isLongName segment = false ∧ tree.isFolder place = false ∧
          (tree.file? place).isSome := by
  cases target with
  | file other => cases hstep
  | folder folder =>
    -- Of the ways to go on from a folder, only the last one ends at a file.
    simp only [step] at hstep
    split at hstep
    · cases hstep
    next hskipped =>
    split at hstep
    · cases hstep
    next hparent =>
    split at hstep
    · cases hstep
    next hlong =>
    split at hstep
    · cases hstep
    next hfolder =>
    split at hstep
    next hfile =>
      cases hstep
      exact ⟨folder, rfl, rfl, by simpa using hskipped, by simpa using hparent,
        by simpa using hlong, by simpa using hfolder, hfile⟩
    · cases hstep

/-- A path whose last segment is a file name is cut before that segment. -/
theorem splitLast_of_segments {above : List (List Char)}
    (hpath : path.segments = above ++ [segment]) (hskipped : Path.isSkipped segment = false)
    (hparent : segment ≠ ['.', '.']) : splitLast path = (above, some (segment, true)) := by
  -- The segment is not empty, so no slash follows it.
  have hsegment : segment ≠ [] ∧ segment ≠ ['.'] := by simpa [Path.isSkipped] using hskipped
  simp [splitLast, hpath, hsegment, hparent]

/-- A path that leads to a file is written there, and the file exists. -/
theorem writePlace_of_resolve (hpath : tree.resolve path = .ok (.file place)) :
    tree.writePlace path = .ok place ∧ (tree.file? place).isSome := by
  unfold resolve at hpath
  split at hpath
  · cases hpath
  next hrefusal =>
  -- The path has a last segment, which leads from a folder to the file.
  obtain hnil | ⟨above, last, hsegments⟩ := List.eq_nil_or_concat path.segments
  · exact absurd hnil (List.splitOn_ne_nil _ _)
  rw [List.concat_eq_append] at hsegments
  rw [hsegments, follow_append] at hpath
  cases habove : tree.follow (tree.startOf path) above with
  | error cause =>
    rw [habove] at hpath
    cases hpath
  | ok target =>
    have hstep : tree.step target last = .ok (.file place) := by
      cases hlast : tree.step target last with
      | error cause => simp [habove, follow, hlast, bind, Except.bind] at hpath
      | ok next => simpa [habove, follow, hlast, bind, Except.bind] using hpath
    obtain ⟨folder, rfl, rfl, hskipped, hparent, hlong, hfolder, hfile⟩ :=
      exists_of_step_eq_file hstep
    refine ⟨?_, hfile⟩
    simp [writePlace, hrefusal, splitLast_of_segments hsegments hskipped hparent, habove, hlong,
      hfolder, bind, Except.bind, pure, Except.pure]

/-! ### Reading and writing -/

theorem exists_of_read_eq_ok (hread : tree.read path = .ok text) :
    ∃ place, tree.resolve path = .ok (.file place) := by
  unfold read at hread
  cases htarget : tree.resolve path with
  | error cause => simp [htarget, bind, Except.bind] at hread
  | ok target =>
    cases target with
    | file place => exact ⟨place, rfl⟩
    | folder place => simp [htarget, bind, Except.bind] at hread

theorem read_of_resolve (hpath : tree.resolve path = .ok (.file place))
    (hfile : tree.file? place = some text.toUTF8) : tree.read path = .ok text := by
  have htext : String.fromUTF8? text.toUTF8 = some text := by
    simp only [String.fromUTF8?, String.toUTF8_eq_toByteArray, dif_pos text.isValidUTF8]
    rfl
  simp only [read, hpath, bind, Except.bind, hfile, Option.bind_some, htext]

/-- A file that can be read can be written. It then reads as it was written, and nothing else
about the tree changes. -/
theorem write_of_read (hread : tree.read path = .ok old) (text : String) :
    ∃ after, tree.write path text = (.ok (), after) ∧ after.read path = .ok text ∧
      AgreeApartFrom path tree after := by
  obtain ⟨place, hpath⟩ := exists_of_read_eq_ok hread
  obtain ⟨hplace, hfile⟩ := writePlace_of_resolve hpath
  refine ⟨tree.setFile place text.toUTF8, by simp [write, hplace], ?_, rfl, rfl,
    resolve_setFile hfile, ?_⟩
  · exact read_of_resolve ((resolve_setFile hfile path).trans hpath) file?_setFile_self
  · intro other hother
    refine file?_setFile_of_ne ?_
    rintro rfl
    exact hother hpath

end Waymark.FileTree
