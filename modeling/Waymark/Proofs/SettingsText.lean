import Waymark.Proofs.Nesting
import Waymark.Proofs.OptionFields
import Waymark.Vault.Settings

/-!
# Options in a settings text

The options of a vault stand among the members of its settings, and the members of a settings text
are read one by one. As long as the two fields that are no options stay away, this comes to the
same as reading the whole value first and the options from the value, whatever the order of the
members and whatever else stands among them. The one difference is that a text is refused where its
containers stand too deep inside one another, while a value has no such limit.

## Main results

* `Settings.readDraft_of_isSpelledBy` — the members that are gathered from a settings text
* `Settings.ofText_eq_ok_iff` — when a settings text is accepted, and what it gives
* `Settings.ofText_eq_ok_iff_ofJson` — settings of options alone are the options of the value
* `Settings.ofText_nestedText_ne` — a value whose text is refused for its nesting
-/

namespace Waymark

/-- Notes are arranged by the normalized options anyway. -/
theorem arrange_normalized (note name : String) (options : Options) :
    arrange note name options.normalized = arrange note name options := by
  rw [arrange, arrange, options.normalized_normalized]

namespace Settings

variable {written members : List (String × Json)} {text : String} {settings : Settings}

/-- Members that are no fields of the settings' own are gathered as they stand, as long as their
values keep the limit. -/
theorem compares_readField (depth : Nat) :
    Compares (collectMember (readValue depth)) readField
      (fun members draft => draft = { members } ∧
        ∀ member ∈ members, member.2.NestedWithin (nestingLimit - 1))
      (fun members => ∀ member ∈ members,
        member.1 ≠ debounceName ∧ member.1 ≠ excludedFoldersName)
      (fun members => ∃ member ∈ members, ¬ member.2.NestedWithin (nestingLimit - 1)) := by
  refine compares_collectMember fun {members draft name text value rest} hdraft hname hread => ?_
  obtain ⟨rfl, hnested⟩ := hdraft
  obtain ⟨behind, htokens, hread⟩ := readAfterColon_eq_ok_iff.mp hread
  rw [readField, if_neg hname.1, if_neg hname.2, collectMember, readAfterColon]
  simp only [htokens]
  rcases readValue_of_readValue hread (nestingLimit - 1) with
    ⟨hvalue, hread⟩ | ⟨hvalue, cause, hread⟩
  · rw [hread]
    exact Or.inl ⟨_, rfl, rfl, List.forall_mem_append.mpr
      ⟨hnested, List.forall_mem_singleton.mpr hvalue⟩⟩
  · rw [hread]
    exact Or.inr ⟨⟨cause, rfl⟩, hvalue⟩

/-- The text of an object is read into a draft of its members, unless it is nested too deep. -/
theorem readDraft_of_isSpelledBy (htext : (Json.object written).IsSpelledBy text)
    (hown : ∀ member ∈ written, member.1 ≠ debounceName ∧ member.1 ≠ excludedFoldersName) :
    ((Json.object written).NestedWithin nestingLimit ∧ ∃ rest, isAtEnd rest = true ∧
        readDraft text.toList = .ok ({ members := written }, rest)) ∨
      (¬ (Json.object written).NestedWithin nestingLimit ∧
        ∃ cause, readDraft text.toList = .error cause) := by
  obtain ⟨depth, rest, hread, hend⟩ := htext
  obtain ⟨behind, inner, htokens, hmembers⟩ := exists_of_readValue_object hread
  have hdraft : readDraft text.toList = readMembers readField {} behind := by
    simp only [readDraft, htokens]
  rw [hdraft]
  rcases (compares_readField inner).readMembers ⟨rfl, by simp⟩ hown hmembers with
    ⟨_, hread, rfl, hnested⟩ | ⟨hread, member, hmember, hdeep⟩
  · exact Or.inl ⟨hnested, rest, hend, hread⟩
  · exact Or.inr ⟨fun hnested => hdeep (hnested member hmember), hread⟩

/-- A settings text of options alone is accepted if its nesting is and its members are. -/
theorem ofText_eq_ok_iff (htext : (Json.object written).IsSpelledBy text)
    (hown : ∀ member ∈ written, member.1 ≠ debounceName ∧ member.1 ≠ excludedFoldersName) :
    ofText text = .ok settings ↔ (Json.object written).NestedWithin nestingLimit ∧
      ∃ options, Options.ofMembers written = .ok options ∧ settings = { options } := by
  rcases readDraft_of_isSpelledBy htext hown with
    ⟨hnested, rest, hend, hread⟩ | ⟨hdeep, cause, hread⟩
  · rw [ofText, hread, and_iff_right hnested]
    cases hoptions : Options.ofMembers written with
    | error cause =>
      simp [ofDraft, hoptions, bind, Except.bind, throw, throwThe, MonadExceptOf.throw]
    | ok options =>
      simp [ofDraft, hoptions, hend, bind, Except.bind, pure, Except.pure, eq_comm]
  · rw [ofText, hread]
    exact iff_of_false (fun h => by cases h) fun h => hdeep h.1

/-- Options are the same whether they are read from a value or from a settings text that spells the
value, in any order of the members and with any others among them. They are in range, and once
normalized they are fit for use. Only a value that is nested too deep cannot be read as settings. -/
theorem ofText_eq_ok_iff_ofJson (htext : (Json.object written).IsSpelledBy text)
    (horder : written.Perm members) (hnodup : (members.map (·.1)).Nodup)
    (hown : ∀ member ∈ members, member.1 ≠ debounceName ∧ member.1 ≠ excludedFoldersName) :
    (∀ settings, ofText text = .ok settings ↔
      (Json.object members).NestedWithin nestingLimit ∧
        ∃ options, Options.ofJson (.object members) = .ok options ∧ settings = { options }) ∧
    (∀ options, Options.ofJson (.object members) = .ok options →
      options.InRange ∧
        (1 ≤ options.normalized.maxDepth ∧ options.normalized.maxDepth ≤ deepestLevel) ∧
        ruleLine options.normalized.rule = options.normalized.rule ∧
        options.normalized.normalized = options.normalized) ∧
    ∀ settings, ofText text = .ok settings → ∀ note name,
      (Options.ofJson (.object members)).map (arrange note name) =
        .ok (arrange note name settings.noteOptions) := by
  have hownWritten : ∀ member ∈ written,
      member.1 ≠ debounceName ∧ member.1 ≠ excludedFoldersName :=
    fun member hmember => hown member (horder.mem_iff.mp hmember)
  have hnested : (Json.object written).NestedWithin nestingLimit ↔
      (Json.object members).NestedWithin nestingLimit :=
    forall_congr' fun member => imp_congr_left horder.mem_iff
  have hread : ∀ settings, ofText text = .ok settings ↔
      (Json.object members).NestedWithin nestingLimit ∧
        ∃ options, Options.ofJson (.object members) = .ok options ∧ settings = { options } := by
    intro settings
    rw [ofText_eq_ok_iff htext hownWritten, hnested]
    simp only [Options.ofMembers_eq_ok_iff_ofJson horder hnodup]
  refine ⟨hread, fun options hoptions => ?_, fun settings hsettings note name => ?_⟩
  · exact ⟨Options.ofJson_inRange hoptions, Options.effectiveDepth_range _,
      ruleLine_usableRule options, options.normalized_normalized⟩
  · obtain ⟨-, options, hoptions, rfl⟩ := (hread settings).mp hsettings
    rw [hoptions, Except.map, noteOptions, arrange_normalized]

theorem ofText_eq_ok_iff_ofJson_shuffled :
    (Json.object [("footer_levels", .array [.string "3", .string "2"]),
        ("hr", .string "***"), ("x", .array [.null])]).IsSpelledBy
      "\x7b \"footer_levels\": [\"3\", \"2\"], \"hr\": \"***\", \"x\": [null] \x7d" ∧
    Options.ofJson (.object [("hr", .string "***"),
      ("footer_levels", .array [.string "3", .string "2"]), ("x", .array [.null])]) =
        .ok { footerLevels := [3, 2], rule := "***".toList } ∧
    ofText "\x7b \"footer_levels\": [\"3\", \"2\"], \"hr\": \"***\", \"x\": [null] \x7d" =
      .ok { options := { footerLevels := [3, 2], rule := "***".toList } } := by
  have htext : (Json.object [("footer_levels", .array [.string "3", .string "2"]),
        ("hr", .string "***"), ("x", .array [.null])]).IsSpelledBy
      "\x7b \"footer_levels\": [\"3\", \"2\"], \"hr\": \"***\", \"x\": [null] \x7d" :=
    ⟨2, [], by cbv, rfl⟩
  have hboth := ofText_eq_ok_iff_ofJson htext (List.Perm.swap _ _ _) (by decide) (by decide)
  exact ⟨htext, rfl, (hboth.1 _).mpr ⟨by decide, _, rfl, rfl⟩⟩

/-! ### Nesting -/

/-- An object with an array that holds so many others inside one another. -/
def nestedText (count : Nat) : String :=
  .ofList ('\x7b' :: '"' :: 'x' :: '"' :: ':' :: (nestedArrayText count ++ ['\x7d']))

theorem isSpelledBy_nestedText (count : Nat) :
    (Json.object [("x", .nestedArray count)]).IsSpelledBy (nestedText count) := by
  let tail := nestedArrayText count ++ ['\x7d']
  have hvalue : readAfterColon (readValue (count + 1)) (':' :: tail) =
      .ok (.nestedArray count, ['\x7d']) := by
    refine readAfterColon_eq_ok_iff.mpr ⟨tail, rfl, ?_⟩
    rw [skipSpace_nestedArrayText]
    exact readValue_nestedArrayText count _
  have hname : readString ('x' :: '"' :: ':' :: tail) = .ok ("x", ':' :: tail) := rfl
  have hfirst : readMember (collectMember (readValue (count + 1))) []
      ('"' :: 'x' :: '"' :: ':' :: tail) = .ok ([("x", .nestedArray count)], ['\x7d']) :=
    bind_eq_ok.mpr ⟨_, hname, collectMember_eq_ok_iff.mpr ⟨_, hvalue, rfl⟩⟩
  have hmembers : readMembers (collectMember (readValue (count + 1))) []
      ('"' :: 'x' :: '"' :: ':' :: tail) = .ok ([("x", .nestedArray count)], []) :=
    bind_eq_ok.mpr ⟨_, hfirst, rfl⟩
  refine ⟨count + 2, [], ?_, rfl⟩
  rw [nestedText, String.toList_ofList]
  exact (readValue_object_eq_ok_iff rfl).mpr ⟨count + 1, _, rfl, hmembers, rfl⟩

/-- An object in a settings text may hold no more containers than are left below it. -/
theorem ofText_nestedText_eq_ok_iff (count : Nat) :
    ofText (nestedText count) = .ok settings ↔ count + 1 < nestingLimit ∧ settings = {} := by
  have hown : ∀ member ∈ [("x", Json.nestedArray count)],
      member.1 ≠ debounceName ∧ member.1 ≠ excludedFoldersName :=
    List.forall_mem_singleton.mpr (by decide : "x" ≠ debounceName ∧ "x" ≠ excludedFoldersName)
  have hnested : (Json.object [("x", .nestedArray count)]).NestedWithin nestingLimit ↔
      count + 1 < nestingLimit :=
    List.forall_mem_singleton.trans
      (Json.nestedWithin_nestedArray_iff.trans Nat.succ_lt_succ_iff.symm)
  have hoptions : Options.ofMembers [("x", .nestedArray count)] = .ok {} := rfl
  rw [ofText_eq_ok_iff (isSpelledBy_nestedText count) hown, hnested, hoptions]
  simp

/-- As a value, the object of an array that is nested deep gives the default options. As a text it
is refused. -/
theorem ofText_nestedText_ne :
    (Json.object [("x", .nestedArray 126)]).IsSpelledBy (nestedText 126) ∧
      Options.ofJson (.object [("x", .nestedArray 126)]) = .ok {} ∧
      ∀ settings, ofText (nestedText 126) ≠ .ok settings := by
  refine ⟨isSpelledBy_nestedText 126, rfl, fun settings h => ?_⟩
  exact absurd ((ofText_nestedText_eq_ok_iff 126).mp h).1 (by decide)

end Settings

end Waymark
