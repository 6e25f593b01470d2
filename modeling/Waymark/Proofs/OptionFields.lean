import Mathlib.Data.List.Nodup
import Mathlib.Data.List.Perm.Basic
import Waymark.Options
import Waymark.Proofs.Generated

/-!
# Fields of options

Options come out of a value field by field. Each field is read on its own and then put in its
place, so the order of the fields makes no difference as long as none occurs twice. That is why an
object that is read by the names of the fields gives the options that its members give in the order
in which they are written.

## Main definitions

* `Options.InRange` — what every reader of options sees to
* `Options.take` — options with one field taken from other ones
* `knownFields` — the members that are fields of options, in their order

## Main results

* `Options.readAll_inRange` — the fields that are read are in their ranges
* `Options.readAll_perm` — fields may be read in any order
* `Options.ofMembers_eq_ok_iff_ofJson` — reading members in order, and reading fields by name
* `Options.normalized_normalized` — normalized options are left as they are
-/

namespace Waymark

/-- The depth and the levels of options are in their ranges. -/
structure Options.InRange (options : Options) : Prop where
  /-- The depth is zero, for the default, or a level. -/
  depth_le : options.maxDepth ≤ deepestLevel
  /-- No level occurs twice. -/
  levels_nodup : options.footerLevels.Nodup
  /-- The levels are those of headings. -/
  levels_mem : ∀ level ∈ options.footerLevels, 1 ≤ level ∧ level ≤ deepestLevel

/-- The options with one field taken from others. -/
def Options.take (options other : Options) : OptionField → Options
  | .maxDepth => { options with maxDepth := other.maxDepth }
  | .footerLevels => { options with footerLevels := other.footerLevels }
  | .prettifyTitle => { options with prettifyTitle := other.prettifyTitle }
  | .createFrontmatter => { options with createFrontmatter := other.createFrontmatter }
  | .rule => { options with rule := other.rule }

/-- The members that are fields of options, in their order. -/
def knownFields (members : List (String × Json)) : List (OptionField × Json) :=
  members.filterMap fun member =>
    (OptionField.ofName? member.1).map fun field => (field, member.2)

/-! ### Levels -/

section Levels

/-- A level goes behind those that are kept, unless it is among them. -/
def keepFirst (kept : List Nat) (level : Nat) : List Nat :=
  if kept.contains level then kept else kept ++ [level]

theorem cleanLevels_eq_foldl (numbers : List Int) :
    cleanLevels numbers = ((numbers.filter isLevel).map Int.toNat).foldl keepFirst [] :=
  rfl

variable {kept levels : List Nat} {level : Nat}

theorem keepFirst_of_notMem (h : level ∉ kept) : keepFirst kept level = kept ++ [level] :=
  if_neg (by simpa using h)

theorem keepFirst_of_mem (h : level ∈ kept) : keepFirst kept level = kept :=
  if_pos (by simpa using h)

theorem keepFirst_nodup (h : kept.Nodup) : (keepFirst kept level).Nodup := by
  by_cases hmem : level ∈ kept
  · rwa [keepFirst_of_mem hmem]
  · rw [keepFirst_of_notMem hmem]
    exact List.nodup_append.mpr ⟨h, List.nodup_singleton _,
      fun a ha b hb heq => hmem (List.mem_singleton.mp hb ▸ heq ▸ ha)⟩

theorem mem_keepFirst_iff {a : Nat} : a ∈ keepFirst kept level ↔ a ∈ kept ∨ a = level := by
  by_cases hmem : level ∈ kept
  · rw [keepFirst_of_mem hmem, iff_self_or]
    rintro rfl
    exact hmem
  · rw [keepFirst_of_notMem hmem, List.mem_append, List.mem_singleton]

theorem foldl_keepFirst_nodup (h : kept.Nodup) : (levels.foldl keepFirst kept).Nodup := by
  induction levels generalizing kept with
  | nil => exact h
  | cons level levels ih => exact ih (keepFirst_nodup h)

theorem mem_of_mem_foldl_keepFirst (h : level ∈ levels.foldl keepFirst kept) :
    level ∈ kept ∨ level ∈ levels := by
  induction levels generalizing kept with
  | nil => exact Or.inl h
  | cons first levels ih =>
    rcases ih h with h | h
    · rcases mem_keepFirst_iff.mp h with h | rfl
      · exact Or.inl h
      · exact Or.inr List.mem_cons_self
    · exact Or.inr (List.mem_cons_of_mem _ h)

theorem foldl_keepFirst_of_nodup (h : (kept ++ levels).Nodup) :
    levels.foldl keepFirst kept = kept ++ levels := by
  induction levels generalizing kept with
  | nil => exact (List.append_nil kept).symm
  | cons level levels ih =>
    have hnew : level ∉ kept := fun hmem =>
      List.disjoint_of_nodup_append h hmem List.mem_cons_self
    rw [List.append_cons] at h
    rw [List.foldl_cons, keepFirst_of_notMem hnew, ih h, ← List.append_cons]

theorem cleanLevels_nodup (numbers : List Int) : (cleanLevels numbers).Nodup :=
  foldl_keepFirst_nodup List.nodup_nil

theorem mem_cleanLevels {numbers : List Int} (h : level ∈ cleanLevels numbers) :
    1 ≤ level ∧ level ≤ deepestLevel := by
  rw [cleanLevels_eq_foldl] at h
  have hmem := (mem_of_mem_foldl_keepFirst h).resolve_left List.not_mem_nil
  obtain ⟨n, hn, rfl⟩ := List.mem_map.mp hmem
  have hlevel := List.of_mem_filter hn
  simp only [isLevel, Bool.and_eq_true, decide_eq_true_eq] at hlevel
  omega

/-- Levels that are in range and distinct are all kept. -/
theorem cleanLevels_map_ofNat (hnodup : levels.Nodup)
    (hrange : ∀ level ∈ levels, 1 ≤ level ∧ level ≤ deepestLevel) :
    cleanLevels (levels.map Int.ofNat) = levels := by
  have hfilter : (levels.map Int.ofNat).filter isLevel = levels.map Int.ofNat := by
    refine List.filter_eq_self.mpr fun n hn => ?_
    obtain ⟨level, hlevel, rfl⟩ := List.mem_map.mp hn
    have := hrange level hlevel
    simp only [isLevel, Int.ofNat_eq_natCast, Bool.and_eq_true, decide_eq_true_eq]
    omega
  have hmap : (levels.map Int.ofNat).map Int.toNat = levels := by
    rw [List.map_map]
    exact List.map_id levels
  rw [cleanLevels_eq_foldl, hfilter, hmap, foldl_keepFirst_of_nodup (by simpa using hnodup),
    List.nil_append]

end Levels

/-! ### One field -/

theorem exists_of_map_eq_ok {ε α β : Type} {x : Except ε α} {f : α → β} {b : β}
    (h : x.map f = .ok b) : ∃ a, x = .ok a ∧ f a = b := by
  cases x with
  | error cause => cases h
  | ok a => exact ⟨a, rfl, Except.ok.inj h⟩

namespace Options

variable {options options' : Options} {field field' : OptionField} {value value' : Json}

theorem readDepth_le {depth : Nat} (h : readDepth value = .ok depth) : depth ≤ deepestLevel := by
  unfold readDepth at h
  split at h
  · split at h
    · cases h
      omega
    · cases h
  · cases h

theorem exists_of_readLevels {levels : List Nat} (h : readLevels value = .ok levels) :
    ∃ numbers, levels = cleanLevels numbers := by
  rw [readLevels] at h
  split at h
  · next numbers _ => exact ⟨numbers, (Except.ok.inj h).symm⟩
  · cases h

theorem inRange_default : ({} : Options).InRange where
  depth_le := by decide
  levels_nodup := by decide
  levels_mem := by decide

/-- Reading a field keeps the options in range. -/
theorem read_inRange (h : options.read field value = .ok options') (hrange : options.InRange) :
    options'.InRange := by
  cases field with
  | maxDepth =>
    obtain ⟨depth, hdepth, rfl⟩ := exists_of_map_eq_ok h
    exact ⟨readDepth_le hdepth, hrange.levels_nodup, hrange.levels_mem⟩
  | footerLevels =>
    obtain ⟨levels, hlevels, rfl⟩ := exists_of_map_eq_ok h
    obtain ⟨numbers, rfl⟩ := exists_of_readLevels hlevels
    exact ⟨hrange.depth_le, cleanLevels_nodup numbers, fun _ => mem_cleanLevels⟩
  | prettifyTitle =>
    obtain ⟨flag, -, rfl⟩ := exists_of_map_eq_ok h
    exact ⟨hrange.depth_le, hrange.levels_nodup, hrange.levels_mem⟩
  | createFrontmatter =>
    obtain ⟨flag, -, rfl⟩ := exists_of_map_eq_ok h
    exact ⟨hrange.depth_le, hrange.levels_nodup, hrange.levels_mem⟩
  | rule =>
    obtain ⟨text, -, rfl⟩ := exists_of_map_eq_ok h
    exact ⟨hrange.depth_le, hrange.levels_nodup, hrange.levels_mem⟩

/-- A field is read on its own and then put in its place. -/
theorem read_eq_map_take (options : Options) (field : OptionField) (value : Json) :
    options.read field value = (read {} field value).map fun other => options.take other field := by
  cases field with
  | maxDepth => cases h : readDepth value <;> simp [read, take, h, Except.map]
  | footerLevels => cases h : readLevels value <;> simp [read, take, h, Except.map]
  | prettifyTitle => cases h : readFlag value <;> simp [read, take, h, Except.map]
  | createFrontmatter => cases h : readFlag value <;> simp [read, take, h, Except.map]
  | rule => cases h : readText value <;> simp [read, take, h, Except.map]

/-- Different fields have different places. -/
theorem take_take_comm (hne : field ≠ field') (options first second : Options) :
    (options.take first field).take second field' =
      (options.take second field').take first field := by
  cases field <;> cases field' <;> first | rfl | exact absurd rfl hne

theorem read_eq_ok_iff : options.read field value = .ok options' ↔
    ∃ other, read {} field value = .ok other ∧ options' = options.take other field := by
  rw [read_eq_map_take]
  cases read {} field value with
  | error cause => simp [Except.map]
  | ok other => simp [Except.map, eq_comm]

/-! ### Many fields -/

variable {pair : OptionField × Json} {fields fields' : List (OptionField × Json)} {last : Options}

theorem readAll_cons_eq_ok_iff : options.readAll (pair :: fields) = .ok last ↔
    ∃ other, read {} pair.1 pair.2 = .ok other ∧
      (options.take other pair.1).readAll fields = .ok last := by
  rw [readAll, read_eq_map_take]
  cases read {} pair.1 pair.2 with
  | error cause => simp [Except.map, bind, Except.bind]
  | ok other => simp [Except.map, bind, Except.bind]

theorem readAll_inRange (h : options.readAll fields = .ok last) (hrange : options.InRange) :
    last.InRange := by
  induction fields generalizing options with
  | nil =>
    cases h
    exact hrange
  | cons pair fields ih =>
    obtain ⟨other, hother, hfields⟩ := readAll_cons_eq_ok_iff.mp h
    exact ih hfields (read_inRange (read_eq_ok_iff.mpr ⟨other, hother, rfl⟩) hrange)

/-- The order of the fields makes no difference if none of them occurs twice. -/
theorem readAll_perm (h : fields.Perm fields') (hnodup : (fields.map (·.1)).Nodup) :
    options.readAll fields = .ok last ↔ options.readAll fields' = .ok last := by
  induction h generalizing options with
  | nil => rfl
  | cons pair _ ih =>
    rw [readAll_cons_eq_ok_iff, readAll_cons_eq_ok_iff]
    exact exists_congr fun other => and_congr_right fun _ => ih (List.nodup_cons.mp hnodup).2
  | swap first second fields =>
    have hne : second.1 ≠ first.1 := by
      simp only [List.map_cons, List.nodup_cons, List.mem_cons, not_or] at hnodup
      exact hnodup.1.1
    simp only [readAll_cons_eq_ok_iff]
    constructor
    · rintro ⟨a, ha, b, hb, hfields⟩
      exact ⟨b, hb, a, ha, take_take_comm hne options a b ▸ hfields⟩
    · rintro ⟨b, hb, a, ha, hfields⟩
      exact ⟨a, ha, b, hb, take_take_comm hne options a b ▸ hfields⟩
  | trans hfirst _ ih ih' =>
    exact (ih hnodup).trans (ih' ((hfirst.map _).nodup_iff.mp hnodup))

end Options

/-! ### Members -/

section Members

variable {members members' : List (String × Json)} {name : String} {field : OptionField}
  {value : Json}

theorem OptionField.ofName?_eq_some_iff :
    OptionField.ofName? name = some field ↔ field.name = name := by
  constructor
  · intro h
    simpa using List.find?_some h
  · rintro rfl
    cases field <;> rfl

/-- A name is looked up among names that all differ. -/
theorem Json.lookup?_eq_some_iff (hnodup : (members.map (·.1)).Nodup) :
    Json.lookup? members name = some value ↔ (name, value) ∈ members := by
  rw [Json.lookup?, Option.map_eq_some_iff]
  constructor
  · rintro ⟨member, hfind, rfl⟩
    have hname : member.1 = name := by simpa using List.find?_some hfind
    exact hname ▸ List.mem_reverse.mp (List.mem_of_find?_eq_some hfind)
  · intro hmem
    obtain ⟨member, hfind⟩ : ∃ member,
        members.reverse.find? (fun member => member.1 == name) = some member :=
      Option.isSome_iff_exists.mp
        (List.find?_isSome.mpr ⟨_, List.mem_reverse.mpr hmem, by simp⟩)
    have hname : member.1 = name := by simpa using List.find?_some hfind
    have hmember := List.mem_reverse.mp (List.mem_of_find?_eq_some hfind)
    refine ⟨member, hfind, ?_⟩
    rw [List.inj_on_of_nodup_map hnodup hmember hmem hname]

theorem mem_knownFields_iff :
    (field, value) ∈ knownFields members ↔ (field.name, value) ∈ members := by
  rw [knownFields, List.mem_filterMap]
  constructor
  · rintro ⟨member, hmember, h⟩
    obtain ⟨_, hfield, heq⟩ := Option.map_eq_some_iff.mp h
    cases heq
    exact OptionField.ofName?_eq_some_iff.mp hfield ▸ hmember
  · exact fun hmember => ⟨_, hmember, by rw [OptionField.ofName?_eq_some_iff.mpr rfl]; rfl⟩

theorem knownFields_cons_of_none (h : OptionField.ofName? name = none) :
    knownFields ((name, value) :: members) = knownFields members :=
  List.filterMap_cons_none (by rw [h]; rfl)

theorem knownFields_cons_of_some (h : OptionField.ofName? name = some field) :
    knownFields ((name, value) :: members) = (field, value) :: knownFields members :=
  List.filterMap_cons_some (by rw [h]; rfl)

theorem map_knownFields (members : List (String × Json)) :
    (knownFields members).map (·.1) = (members.map (·.1)).filterMap OptionField.ofName? := by
  rw [knownFields, List.map_filterMap, List.filterMap_map]
  congr 1
  funext member
  cases h : OptionField.ofName? member.1 <;> simp [h]

theorem nodup_knownFields (hnodup : (members.map (·.1)).Nodup) :
    ((knownFields members).map (·.1)).Nodup := by
  rw [map_knownFields]
  refine hnodup.filterMap fun name name' field hfield hfield' => ?_
  exact (OptionField.ofName?_eq_some_iff.mp hfield).symm.trans
    (OptionField.ofName?_eq_some_iff.mp hfield')

/-- Looking the fields up by their names finds those among the members. -/
theorem fieldsByName_perm (hnodup : (members.map (·.1)).Nodup) :
    (Options.fieldsByName members).Perm (knownFields members) := by
  have hbyName : (Options.fieldsByName members).Nodup := by
    refine List.Nodup.filterMap (fun field field' pair h h' => ?_) (by decide)
    obtain ⟨_, -, rfl⟩ := Option.map_eq_some_iff.mp h
    obtain ⟨_, -, heq⟩ := Option.map_eq_some_iff.mp h'
    exact (congrArg Prod.fst heq).symm
  refine (List.perm_ext_iff_of_nodup hbyName (nodup_knownFields hnodup).of_map).mpr ?_
  rintro ⟨field, value⟩
  rw [mem_knownFields_iff, ← Json.lookup?_eq_some_iff hnodup, Options.fieldsByName,
    List.mem_filterMap]
  constructor
  · rintro ⟨_, -, h⟩
    obtain ⟨_, hlookup, heq⟩ := Option.map_eq_some_iff.mp h
    cases heq
    exact hlookup
  · intro h
    refine ⟨field, ?_, by rw [h]; rfl⟩
    cases field <;> decide

namespace Options

variable {options last : Options} {seen : List OptionField}

/-- Members whose names all differ are read like the fields among them. -/
theorem ofMembersFrom_eq_readAll (hnodup : (members.map (·.1)).Nodup)
    (hseen : ∀ field ∈ seen, field.name ∉ members.map (·.1)) :
    options.ofMembersFrom seen members = options.readAll (knownFields members) := by
  induction members generalizing options seen with
  | nil => rfl
  | cons member members ih =>
    obtain ⟨name, value⟩ := member
    obtain ⟨hname, hnodup⟩ := List.nodup_cons.mp hnodup
    have hbehind : ∀ field ∈ seen, field.name ∉ members.map (·.1) := fun field hfield hmem =>
      hseen field hfield (List.mem_cons_of_mem _ hmem)
    rw [ofMembersFrom]
    cases hfield : OptionField.ofName? name with
    | none => rw [knownFields_cons_of_none hfield, ← ih hnodup hbehind]
    | some field =>
      have hfieldName := OptionField.ofName?_eq_some_iff.mp hfield
      -- No name stands twice, so this field is not among those seen.
      have hnew : seen.contains field = false := by
        by_contra hmem
        refine hseen field (by simpa using hmem) ?_
        rw [hfieldName]
        exact List.mem_cons_self
      have hseen' : ∀ field' ∈ field :: seen, field'.name ∉ members.map (·.1) :=
        List.forall_mem_cons.mpr ⟨hfieldName ▸ hname, hbehind⟩
      rw [knownFields_cons_of_some hfield, readAll]
      simp only [hnew, ih hnodup hseen']
      rfl

/-- Reading the members of an object in the order in which they are written gives the same options
as looking the fields up by their names. -/
theorem ofMembers_eq_ok_iff_ofJson (horder : members'.Perm members)
    (hnodup : (members.map (·.1)).Nodup) :
    ofMembers members' = .ok last ↔ ofJson (.object members) = .ok last := by
  have hnodup' : (members'.map (·.1)).Nodup := (horder.map _).nodup_iff.mpr hnodup
  rw [ofMembers, ofMembersFrom_eq_readAll hnodup' (by simp), ofJson]
  exact readAll_perm ((horder.filterMap _).trans (fieldsByName_perm hnodup).symm)
    (nodup_knownFields hnodup')

theorem ofJson_inRange {value : Json} (h : ofJson value = .ok last) : last.InRange := by
  cases value with
  | null => cases h; exact inRange_default
  | object members => exact readAll_inRange h inRange_default
  | array items =>
    rw [ofJson, ofItems] at h
    cases hread : readAll {} (OptionField.all.zip items) with
    | error cause => rw [hread] at h; cases h
    | ok options =>
      rw [hread] at h
      have hoptions := readAll_inRange hread inRange_default
      by_cases hlength : items.length ≤ OptionField.all.length
      · cases h.symm.trans (if_pos hlength)
        exact hoptions
      · cases h.symm.trans (if_neg hlength)
  | _ => cases h

end Options

end Members

/-! ### Normalized options -/

namespace Options

variable (options : Options)

theorem effectiveDepth_range (depth : Nat) :
    1 ≤ effectiveDepth depth ∧ effectiveDepth depth ≤ deepestLevel := by
  rw [effectiveDepth]
  simp only [defaultDepth, deepestLevel]
  split <;> omega

theorem trimEnd_usableRule : trimEnd options.usableRule = options.usableRule := by
  have hvisible := isBlankChar_getLast?_usableRule options
  rw [← List.head?_reverse] at hvisible
  rw [trimEnd]
  cases hreverse : options.usableRule.reverse with
  | nil => exact absurd (List.reverse_eq_nil_iff.mp hreverse) (ruleLine_ne_nil _)
  | cons c front =>
    rw [hreverse] at hvisible
    rw [List.dropWhile_cons_of_neg (by simp [hvisible c rfl]), ← hreverse, List.reverse_reverse]

/-- Normalized options are left as they are. -/
theorem normalized_normalized : options.normalized.normalized = options.normalized := by
  have hdepth : effectiveDepth options.normalized.maxDepth = options.normalized.maxDepth :=
    effectiveDepth_effectiveDepth options.maxDepth
  have hlevels : cleanLevels (options.normalized.footerLevels.map Int.ofNat) =
      options.normalized.footerLevels :=
    cleanLevels_map_ofNat (cleanLevels_nodup _) fun _ => mem_cleanLevels
  have hrule : options.normalized.usableRule = options.normalized.rule := by
    rw [usableRule]
    exact (congrArg ruleLine (trimEnd_usableRule options)).trans (ruleLine_usableRule options)
  rw [normalized, hdepth, hlevels, hrule]

end Options

end Waymark
