import Waymark.Proofs.Exclusions
import Waymark.Proofs.OptionFields

/-!
# Spellings of the footer levels

The levels of the footers are given as a number, as a text with commas, or as an array of numbers
and texts. All of these spell a list of integers, and the levels are read off the integers alone, so
spellings of the same integers give the same levels.

What a text spells is told here without the reader: digits after at most one sign, with any blanks
around them. A piece that spells nothing, or an integer of more than 64 bits, is passed over, and
the pieces next to it are read as if it were not there.

## Main definitions

* `IsPadded`, `IsNumeral`, `Spells` — the integer that a text spells
* `SpelledBy` — the integers among some pieces
* `AreLevelsOf` — the levels among some integers, in the order in which they first occur
* `givenFields`, `GivesLevels` — what a value for the levels comes to, in any object of options

## Main results

* `int64OfText?_eq_some_iff` — the reader finds what a text spells
* `areLevelsOf_cleanLevels` — the levels that are kept
* `givesLevels_of_levelNumbers?` — the field is read on its own, whatever the other members are
* `footerLevels_spelledAlike` — all spellings of some integers give the same levels
-/

namespace Waymark

/-- The text is `core` with any blanks around it. -/
def IsPadded (text core : List Char) : Prop :=
  ∃ front back, text = front ++ core ++ back ∧
    (∀ c ∈ front, isBlankChar c = true) ∧ ∀ c ∈ back, isBlankChar c = true

/-- The text is a number in decimal digits, behind at most one sign. -/
inductive IsNumeral : List Char → Int → Prop
  | plain {digits : List Char} : digits ≠ [] → (∀ c ∈ digits, c.isDigit = true) →
      IsNumeral digits (Nat.ofDigitChars 10 digits 0)
  | plus {digits : List Char} : digits ≠ [] → (∀ c ∈ digits, c.isDigit = true) →
      IsNumeral ('+' :: digits) (Nat.ofDigitChars 10 digits 0)
  | minus {digits : List Char} : digits ≠ [] → (∀ c ∈ digits, c.isDigit = true) →
      IsNumeral ('-' :: digits) (-(Nat.ofDigitChars 10 digits 0 : Int))

/-- The text spells the integer, with any blanks around it. -/
def Spells (text : List Char) (n : Int) : Prop :=
  ∃ core, IsPadded text core ∧ IsNumeral core n

/-- The integers of 64 bits that the pieces spell, in their order. Any other piece is passed
over. -/
inductive SpelledBy : List (List Char) → List Int → Prop
  | nil : SpelledBy [] []
  | taken {piece : List Char} {n : Int} {pieces : List (List Char)} {numbers : List Int} :
      Spells piece n → inInt64 n = true → SpelledBy pieces numbers →
        SpelledBy (piece :: pieces) (n :: numbers)
  | skipped {piece : List Char} {pieces : List (List Char)} {numbers : List Int} :
      (∀ n, Spells piece n → inInt64 n = false) → SpelledBy pieces numbers →
        SpelledBy (piece :: pieces) numbers

/-- The levels among the integers, each once, in the order in which they first occur. -/
structure AreLevelsOf (numbers : List Int) (levels : List Nat) : Prop where
  mem_iff : ∀ level : Nat, level ∈ levels ↔ 1 ≤ level ∧ level ≤ 6 ∧ (level : Int) ∈ numbers
  nodup : levels.Nodup
  ordered : levels.Pairwise fun level later : Nat =>
    numbers.idxOf (level : Int) < numbers.idxOf (later : Int)

/-- The wanted fields that an object gives, each with its last value. -/
def givenFields (wanted : List OptionField) (members : List (String × Json)) :
    List (OptionField × Json) :=
  wanted.filterMap fun field =>
    (Json.lookup? members field.name).map fun value => (field, value)

/-- An object of options in which the footers' levels are given as the value is read like the object
without that field, except for the levels, which are the given ones. -/
def GivesLevels (value : Json) (levels : List Nat) : Prop :=
  ∀ members : List (String × Json),
    Json.lookup? members OptionField.footerLevels.name = some value →
      Options.ofJson (.object members) =
        (Options.ofJson (.object
          (members.filter (·.1 != OptionField.footerLevels.name)))).map
            fun options => { options with footerLevels := levels }

/-! ### Integers as texts -/

section Texts

variable {text core digits : List Char} {n : Int} {pieces : List (List Char)} {numbers : List Int}

theorem naturalOfText?_eq_some_iff {m : Nat} : naturalOfText? digits = some m ↔
    (digits ≠ [] ∧ ∀ c ∈ digits, c.isDigit = true) ∧ Nat.ofDigitChars 10 digits 0 = m := by
  have hdigits : (digits ≠ [] ∧ ∀ c ∈ digits, c.isDigit = true) ↔
      ¬(digits.isEmpty || !digits.all Char.isDigit) = true := by
    simp
  rw [naturalOfText?, Option.ite_none_left_eq_some, hdigits, Nat.ofDigitChars_eq_foldl,
    Option.some.injEq]

theorem isBlankChar_eq_false_of_isDigit {c : Char} (h : c.isDigit = true) :
    isBlankChar c = false := by
  have hrange : 48 ≤ c.toNat ∧ c.toNat ≤ 57 := by
    simpa [Char.isDigit, UInt32.le_iff_toNat_le] using h
  simp only [isBlankChar, Bool.or_eq_false_iff, Bool.and_eq_false_iff, decide_eq_false_iff_not,
    beq_eq_false_iff_ne]
  omega

theorem integerOfText?_eq_some_iff : integerOfText? core = some n ↔ IsNumeral core n := by
  constructor
  · intro h
    unfold integerOfText? at h
    split at h
    · obtain ⟨m, hm, rfl⟩ := Option.map_eq_some_iff.mp h
      obtain ⟨value, hvalue, hcast⟩ := Option.bind_eq_some_iff.mp hm
      obtain rfl := Option.some.inj hcast
      obtain ⟨⟨hne, hdigits⟩, rfl⟩ := naturalOfText?_eq_some_iff.mp hvalue
      exact .minus hne hdigits
    · obtain ⟨m, hm, rfl⟩ := Option.map_eq_some_iff.mp h
      obtain ⟨⟨hne, hdigits⟩, rfl⟩ := naturalOfText?_eq_some_iff.mp hm
      exact .plus hne hdigits
    · obtain ⟨m, hm, rfl⟩ := Option.map_eq_some_iff.mp h
      obtain ⟨⟨hne, hdigits⟩, rfl⟩ := naturalOfText?_eq_some_iff.mp hm
      exact .plain hne hdigits
  · intro h
    cases h with
    | plain hne hdigits =>
      -- A numeral without a sign starts with a digit, so no sign is read off it.
      have hvalue := naturalOfText?_eq_some_iff.mpr ⟨⟨hne, hdigits⟩, rfl⟩
      unfold integerOfText?
      split
      · exact absurd (hdigits '-' List.mem_cons_self) (by decide)
      · exact absurd (hdigits '+' List.mem_cons_self) (by decide)
      · rw [hvalue]
        rfl
    | plus hne hdigits =>
      rw [integerOfText?, naturalOfText?_eq_some_iff.mpr ⟨⟨hne, hdigits⟩, rfl⟩]
      rfl
    | minus hne hdigits =>
      rw [integerOfText?, naturalOfText?_eq_some_iff.mpr ⟨⟨hne, hdigits⟩, rfl⟩]
      rfl

/-- A numeral holds signs and digits, so no blank and no comma. -/
theorem IsNumeral.of_mem (h : IsNumeral core n) :
    core ≠ [] ∧ ∀ c ∈ core, isBlankChar c = false ∧ c ≠ ',' := by
  have hchars {digits : List Char} (hdigits : ∀ c ∈ digits, c.isDigit = true) :
      ∀ c ∈ digits, isBlankChar c = false ∧ c ≠ ',' := by
    intro c hc
    refine ⟨isBlankChar_eq_false_of_isDigit (hdigits c hc), ?_⟩
    rintro rfl
    exact absurd (hdigits _ hc) (by decide)
  cases h with
  | plain hne hdigits => exact ⟨hne, hchars hdigits⟩
  | plus hne hdigits =>
    exact ⟨by simp, List.forall_mem_cons.mpr ⟨by decide, hchars hdigits⟩⟩
  | minus hne hdigits =>
    exact ⟨by simp, List.forall_mem_cons.mpr ⟨by decide, hchars hdigits⟩⟩

/-- Trimming leaves the numeral that stands between blanks. -/
theorem IsPadded.trim_eq (h : IsPadded text core) (hcore : IsNumeral core n) :
    trim text = core := by
  have hchars := hcore.of_mem.2
  have htrimmed : IsTrimmed isBlankChar text core :=
    ⟨h, fun c hc => (hchars c (List.mem_of_mem_head? hc)).1,
      fun c hc => (hchars c (List.mem_of_mem_getLast? hc)).1⟩
  exact isTrimmed_iff.mp htrimmed

theorem isPadded_trim (text : List Char) : IsPadded text (trim text) :=
  (isTrimmed_iff.mpr rfl : IsTrimmed isBlankChar text (trim text)).cut

/-- The reader finds the integer that a text spells, if it is one of 64 bits. -/
theorem int64OfText?_eq_some_iff :
    int64OfText? text = some n ↔ Spells text n ∧ inInt64 n = true := by
  rw [int64OfText?, Option.filter_eq_some_iff, integerOfText?_eq_some_iff]
  refine and_congr_left fun _ => ⟨fun h => ⟨trim text, isPadded_trim text, h⟩, ?_⟩
  rintro ⟨core, hpadded, hcore⟩
  rwa [hpadded.trim_eq hcore]

theorem int64OfText?_eq_none_iff :
    int64OfText? text = none ↔ ∀ n, Spells text n → inInt64 n = false := by
  rw [Option.eq_none_iff_forall_ne_some]
  refine forall_congr' fun n => ?_
  rw [ne_eq, int64OfText?_eq_some_iff, not_and, Bool.not_eq_true]

theorem spelledBy_iff : SpelledBy pieces numbers ↔ pieces.filterMap int64OfText? = numbers := by
  constructor
  · intro h
    induction h with
    | nil => rfl
    | taken hspells hrange _ ih =>
      rw [List.filterMap_cons_some (int64OfText?_eq_some_iff.mpr ⟨hspells, hrange⟩), ih]
    | skipped hnone _ ih => rw [List.filterMap_cons_none (int64OfText?_eq_none_iff.mpr hnone), ih]
  · rintro rfl
    induction pieces with
    | nil => exact .nil
    | cons piece pieces ih =>
      cases hpiece : int64OfText? piece with
      | none =>
        rw [List.filterMap_cons_none hpiece]
        exact .skipped (int64OfText?_eq_none_iff.mp hpiece) ih
      | some n =>
        rw [List.filterMap_cons_some hpiece]
        obtain ⟨hspells, hrange⟩ := int64OfText?_eq_some_iff.mp hpiece
        exact .taken hspells hrange ih

/-- A number is written as a numeral. -/
theorem isNumeral_toString (n : Int) : IsNumeral (toString n).toList n := by
  have hdigits (m : Nat) : ∀ c ∈ Nat.toDigits 10 m, c.isDigit = true := fun c =>
    Nat.isDigit_of_mem_toDigits (by decide) (by decide)
  have hvalue (m : Nat) : Nat.ofDigitChars 10 (Nat.toDigits 10 m) 0 = m :=
    Nat.ofDigitChars_toDigits (by decide) (by decide)
  cases n with
  | ofNat m =>
    have htext : (toString (Int.ofNat m)).toList = Nat.toDigits 10 m := Nat.toList_repr
    have hnumeral := IsNumeral.plain Nat.toDigits_ne_nil (hdigits m)
    rw [hvalue] at hnumeral
    exact htext ▸ hnumeral
  | negSucc m =>
    have htext : (toString (Int.negSucc m)).toList = '-' :: Nat.toDigits 10 (m + 1) := by
      rw [← Nat.toList_repr]
      exact String.toList_append
    have hnumeral := IsNumeral.minus Nat.toDigits_ne_nil (hdigits (m + 1))
    rw [hvalue] at hnumeral
    exact htext ▸ hnumeral

end Texts

/-! ### Levels among integers -/

section Levels

variable {numbers : List Int} {levels : List Nat} {n : Int} {level : Nat}

theorem isLevel_iff : isLevel n = true ↔ 1 ≤ n ∧ n ≤ 6 := by
  rw [isLevel, Bool.and_eq_true, decide_eq_true_eq, decide_eq_true_eq]
  rfl

theorem cleanLevels_append_singleton (numbers : List Int) (n : Int) :
    cleanLevels (numbers ++ [n]) =
      if isLevel n then keepFirst (cleanLevels numbers) n.toNat else cleanLevels numbers := by
  rw [cleanLevels_eq_foldl, List.filter_append, List.map_append, List.foldl_append,
    ← cleanLevels_eq_foldl]
  cases hlevel : isLevel n with
  | true => simp [hlevel]
  | false => simp [hlevel]

/-- An integer behind the others changes nothing in where these first occur. -/
theorem ordered_append (hmem : ∀ level ∈ levels, (level : Int) ∈ numbers)
    (h : levels.Pairwise fun level later : Nat =>
      numbers.idxOf (level : Int) < numbers.idxOf (later : Int)) (n : Int) :
    levels.Pairwise fun level later : Nat =>
      (numbers ++ [n]).idxOf (level : Int) < (numbers ++ [n]).idxOf (later : Int) := by
  refine h.imp_of_mem fun hlevel hlater hlt => ?_
  rwa [List.idxOf_append_of_mem (hmem _ hlevel), List.idxOf_append_of_mem (hmem _ hlater)]

/-- The levels that are kept are those among the integers, in the order in which they occur. -/
theorem areLevelsOf_cleanLevels (numbers : List Int) :
    AreLevelsOf numbers (cleanLevels numbers) := by
  induction numbers using List.reverseRecOn with
  | nil => exact ⟨by simp [cleanLevels], List.nodup_nil, List.Pairwise.nil⟩
  | append_singleton numbers n ih =>
    obtain ⟨hmem, -, hordered⟩ := ih
    have hnumbers : ∀ level ∈ cleanLevels numbers, (level : Int) ∈ numbers := fun level hlevel =>
      ((hmem level).mp hlevel).2.2
    have hbefore := ordered_append hnumbers hordered n
    refine ⟨fun level => ?_, cleanLevels_nodup _, ?_⟩
    · -- Beside the levels that were kept there is only the last integer.
      rw [cleanLevels_append_singleton, List.mem_append, List.mem_singleton]
      split
      · next hlevel =>
        rw [isLevel_iff] at hlevel
        have hlast : level = n.toNat ↔ (level : Int) = n := by omega
        rw [mem_keepFirst_iff, hmem, hlast]
        constructor
        · rintro (⟨hone, hsix, hin⟩ | rfl)
          · exact ⟨hone, hsix, Or.inl hin⟩
          · exact ⟨by omega, by omega, Or.inr rfl⟩
        · rintro ⟨hone, hsix, hin | rfl⟩
          · exact Or.inl ⟨hone, hsix, hin⟩
          · exact Or.inr rfl
      · next hlevel =>
        rw [isLevel_iff] at hlevel
        rw [hmem]
        refine and_congr_right fun hone => and_congr_right fun hsix => ?_
        rw [or_iff_left (by omega)]
    · rw [cleanLevels_append_singleton]
      split
      · by_cases hold : n.toNat ∈ cleanLevels numbers
        · rwa [keepFirst_of_mem hold]
        · next hlevel =>
          -- A new level first occurs behind all others.
          rw [isLevel_iff] at hlevel
          have hn : ((n.toNat : Nat) : Int) = n := Int.toNat_of_nonneg (by omega)
          have hnew : n ∉ numbers := fun hin =>
            hold ((hmem _).mpr ⟨by omega, by omega, by rwa [hn]⟩)
          rw [keepFirst_of_notMem hold]
          refine List.pairwise_append.mpr ⟨hbefore, List.pairwise_singleton _ _, ?_⟩
          intro level hkept last hlast
          rw [List.mem_singleton.mp hlast, hn, List.idxOf_append_of_mem (hnumbers level hkept),
            List.idxOf_append_of_notMem hnew]
          have := List.idxOf_lt_length_of_mem (hnumbers level hkept)
          omega
      · exact hbefore

end Levels

/-! ### The field of the levels -/

section Fields

variable {options other : Options} {field : OptionField} {fields front : List (OptionField × Json)}
  {wanted : List OptionField} {members : List (String × Json)} {name name' : String} {value : Json}
  {numbers : List Int}

/-- A field that is not read any more may as well be put in its place last. -/
theorem readAll_take (hfield : field ∉ fields.map (·.1)) :
    (options.take other field).readAll fields =
      (options.readAll fields).map fun last => last.take other field := by
  induction fields generalizing options with
  | nil => rfl
  | cons pair fields ih =>
    rw [List.map_cons, List.mem_cons, not_or] at hfield
    rw [Options.readAll, Options.readAll, Options.read_eq_map_take,
      Options.read_eq_map_take options]
    cases Options.read {} pair.1 pair.2 with
    | error cause => rfl
    | ok found =>
      have hrest : ((options.take found pair.1).take other field).readAll fields =
          ((options.take found pair.1).readAll fields).map fun last => last.take other field :=
        ih hfield.2
      rw [← Options.take_take_comm hfield.1] at hrest
      exact hrest

/-- A field in the middle is read on its own. -/
theorem readAll_append_cons (hread : Options.read {} field value = .ok other)
    (hfield : field ∉ fields.map (·.1)) :
    options.readAll (front ++ (field, value) :: fields) =
      (options.readAll (front ++ fields)).map fun last => last.take other field := by
  induction front generalizing options with
  | nil =>
    have hstep : options.readAll ((field, value) :: fields) =
        (options.take other field).readAll fields := by
      rw [Options.readAll, Options.read_eq_map_take, hread]
      rfl
    exact hstep.trans (readAll_take hfield)
  | cons pair front ih =>
    rw [List.cons_append, List.cons_append, Options.readAll, Options.readAll]
    cases options.read pair.1 pair.2 with
    | error cause => rfl
    | ok next => exact ih

theorem lookup?_filter_of_ne (hne : name' ≠ name) :
    Json.lookup? (members.filter (·.1 != name)) name' = Json.lookup? members name' := by
  rw [Json.lookup?, Json.lookup?, ← List.filter_reverse, List.find?_filter]
  congr 2
  funext member
  by_cases hmember : member.1 = name'
  · simp [hmember, hne]
  · simp [hmember]

theorem lookup?_filter_self : Json.lookup? (members.filter (·.1 != name)) name = none := by
  rw [Json.lookup?, Option.map_eq_none_iff, List.find?_eq_none]
  intro member hmember
  have := (List.mem_filter.mp (List.mem_reverse.mp hmember)).2
  simpa using this

theorem givenFields_filter_of_notMem (h : field ∉ wanted) :
    givenFields wanted (members.filter (·.1 != field.name)) = givenFields wanted members := by
  refine List.filterMap_congr fun other hother => ?_
  have hname : other.name ≠ field.name := by
    intro heq
    have hfound := OptionField.ofName?_eq_some_iff.mpr heq
    rw [OptionField.ofName?_eq_some_iff.mpr rfl] at hfound
    exact h (Option.some.inj hfound ▸ hother)
  rw [lookup?_filter_of_ne hname]

/-- Without one of its fields, an object gives the fields around it. -/
theorem exists_givenFields (hnodup : wanted.Nodup) (hfield : field ∈ wanted)
    (hvalue : Json.lookup? members field.name = some value) :
    ∃ front back, givenFields wanted members = front ++ (field, value) :: back ∧
      givenFields wanted (members.filter (·.1 != field.name)) = front ++ back ∧
        field ∉ back.map (·.1) := by
  obtain ⟨before, after, rfl⟩ := List.append_of_mem hfield
  obtain ⟨hbefore, hafter⟩ : field ∉ before ∧ field ∉ after := by
    simp only [List.nodup_middle, List.nodup_cons, List.mem_append, not_or] at hnodup
    exact hnodup.1
  refine ⟨givenFields before members, givenFields after members, ?_, ?_, ?_⟩
  · rw [givenFields, List.filterMap_append, List.filterMap_cons_some (by rw [hvalue]; rfl)]
    rfl
  · rw [← givenFields_filter_of_notMem hbefore, ← givenFields_filter_of_notMem hafter, givenFields,
      List.filterMap_append, List.filterMap_cons_none (by rw [lookup?_filter_self]; rfl)]
    rfl
  · intro hmem
    obtain ⟨pair, hpair, rfl⟩ := List.mem_map.mp hmem
    obtain ⟨other, hother, hfound⟩ := List.mem_filterMap.mp hpair
    obtain ⟨_, -, rfl⟩ := Option.map_eq_some_iff.mp hfound
    exact hafter hother

/-- The field of the levels is read on its own, whatever the other members are. -/
theorem givesLevels_of_levelNumbers? (h : levelNumbers? value = some numbers) :
    GivesLevels value (cleanLevels numbers) := by
  intro members hvalue
  have hread : Options.read {} .footerLevels value =
      .ok { footerLevels := cleanLevels numbers } := by
    rw [Options.read, readLevels, h]
    rfl
  obtain ⟨front, back, hwith, hwithout, hback⟩ :=
    exists_givenFields (by decide : OptionField.byName.Nodup) (by decide) hvalue
  have hfields (members : List (String × Json)) :
      Options.fieldsByName members = givenFields OptionField.byName members := rfl
  rw [Options.ofJson, Options.ofJson, hfields, hfields, hwith, hwithout]
  exact readAll_append_cons hread hback

/-- An object that gives nothing but the levels. -/
example : Options.ofJson (.object [("footer_levels", .string "2, x,+03,9,2")]) =
    .ok { footerLevels := [2, 3] } := by
  rfl

end Fields

/-! ### Spellings that agree -/

section Spellings

variable {numbers : List Int} {texts : List String}

theorem filterMap_numberOfItem?_strings (texts : List String) :
    (texts.map Json.string).filterMap numberOfItem? =
      (texts.map String.toList).filterMap int64OfText? := by
  rw [List.filterMap_map, List.filterMap_map]
  rfl

theorem filterMap_numberOfItem?_numbers (hrange : ∀ n ∈ numbers, inInt64 n = true) :
    (numbers.map fun n => Json.number (.integer n)).filterMap numberOfItem? = numbers := by
  rw [List.filterMap_map]
  refine (List.filterMap_congr fun n hn => ?_).trans (List.filterMap_some ..)
  rw [Function.comp_apply, numberOfItem?, if_pos (hrange n hn)]

/-- Decimal texts with blanks around them spell their numbers. -/
theorem filterMap_int64OfText?_decimals (hrange : ∀ n ∈ numbers, inInt64 n = true)
    (htexts : List.Forall₂ (fun n text => IsPadded text.toList (toString n).toList) numbers texts) :
    (texts.map String.toList).filterMap int64OfText? = numbers := by
  induction htexts with
  | nil => rfl
  | cons htext _ ih =>
    obtain ⟨hn, hnumbers⟩ := List.forall_mem_cons.mp hrange
    rw [List.map_cons, List.filterMap_cons_some (int64OfText?_eq_some_iff.mpr
      ⟨⟨_, htext, isNumeral_toString _⟩, hn⟩), ih hnumbers]

/-- No comma is in a decimal text with blanks around it. -/
theorem comma_not_mem_of_isPadded {text : List Char} {n : Int}
    (h : IsPadded text (toString n).toList) : ',' ∉ text := by
  obtain ⟨front, back, rfl, hfront, hback⟩ := h
  have hblank (hmem : isBlankChar ',' = true) : False := by
    revert hmem
    decide
  simp only [List.mem_append, not_or]
  exact ⟨⟨fun hmem => hblank (hfront _ hmem),
    fun hmem => ((isNumeral_toString n).of_mem.2 _ hmem).2 rfl⟩, fun hmem => hblank (hback _ hmem)⟩

theorem forall_comma_not_mem
    (htexts : List.Forall₂ (fun n text => IsPadded text.toList (toString n).toList) numbers texts) :
    ∀ piece ∈ texts.map String.toList, ',' ∉ piece := by
  induction htexts with
  | nil => simp
  | cons htext _ ih =>
    rw [List.map_cons]
    exact List.forall_mem_cons.mpr ⟨comma_not_mem_of_isPadded htext, ih⟩

/-- Decimal texts joined with commas spell their numbers. -/
theorem numbersOfText_intercalate (hrange : ∀ n ∈ numbers, inInt64 n = true)
    (htexts : List.Forall₂ (fun n text => IsPadded text.toList (toString n).toList) numbers texts) :
    numbersOfText (",".intercalate texts).toList = numbers := by
  rw [numbersOfText, String.toList_intercalate]
  by_cases hnone : texts = []
  · -- The empty text has one piece, and that is no number.
    subst hnone
    cases htexts
    decide
  · have hpieces :=
      List.splitOn_intercalate ',' (forall_comma_not_mem htexts) (by simpa using hnone)
    exact (congrArg (List.filterMap int64OfText?) hpieces).trans
      (filterMap_int64OfText?_decimals hrange htexts)

end Spellings

/-- All spellings of some integers give the same levels: the levels among them, in the order in
which they first occur. A text and the array of its pieces spell the same integers, and so do the
numbers of 64 bits, their decimal texts with any blanks around them, and these texts joined with
commas. -/
theorem footerLevels_spelledAlike :
    (∀ text : String, ∃ numbers levels, SpelledBy (text.toList.splitOn ',') numbers ∧
      AreLevelsOf numbers levels ∧ levelsOfText text.toList = levels ∧
      GivesLevels (.string text) levels ∧
      GivesLevels (.array ((text.toList.splitOn ',').map fun piece => .string (.ofList piece)))
        levels) ∧
    (∀ (numbers : List Int) (texts : List String), (∀ n ∈ numbers, inInt64 n = true) →
      List.Forall₂ (fun n text => IsPadded text.toList (toString n).toList) numbers texts →
      ∃ levels, AreLevelsOf numbers levels ∧
        GivesLevels (.array (numbers.map fun n => .number (.integer n))) levels ∧
        GivesLevels (.array (texts.map .string)) levels ∧
        GivesLevels (.string (",".intercalate texts)) levels ∧
        levelsOfText (",".intercalate texts).toList = levels) ∧
    ∀ n : Int, inInt64 n = true → ∃ levels, AreLevelsOf [n] levels ∧
      GivesLevels (.number (.integer n)) levels ∧
      GivesLevels (.array [.number (.integer n)]) levels := by
  refine ⟨fun text => ?_, fun numbers texts hrange htexts => ?_, fun n hn => ?_⟩
  · have hpieces : ((text.toList.splitOn ',').map fun piece =>
        Json.string (.ofList piece)).filterMap numberOfItem? = numbersOfText text.toList := by
      rw [List.filterMap_map, numbersOfText]
      refine List.filterMap_congr fun piece _ => ?_
      rw [Function.comp_apply, numberOfItem?, String.toList_ofList]
    exact ⟨_, _, spelledBy_iff.mpr rfl, areLevelsOf_cleanLevels _, rfl,
      givesLevels_of_levelNumbers? rfl,
      givesLevels_of_levelNumbers? (congrArg some hpieces)⟩
  · have hstrings := (filterMap_numberOfItem?_strings texts).trans
      (filterMap_int64OfText?_decimals hrange htexts)
    exact ⟨_, areLevelsOf_cleanLevels numbers,
      givesLevels_of_levelNumbers? (congrArg some (filterMap_numberOfItem?_numbers hrange)),
      givesLevels_of_levelNumbers? (congrArg some hstrings),
      givesLevels_of_levelNumbers? (congrArg some (numbersOfText_intercalate hrange htexts)),
      congrArg cleanLevels (numbersOfText_intercalate hrange htexts)⟩
  · have hitems : [Json.number (.integer n)].filterMap numberOfItem? = [n] :=
      filterMap_numberOfItem?_numbers (List.forall_mem_singleton.mpr hn)
    exact ⟨_, areLevelsOf_cleanLevels [n], givesLevels_of_levelNumbers? (if_pos hn),
      givesLevels_of_levelNumbers? (congrArg some hitems)⟩

/-- Numbers in and out of range, one of them twice, spelled with blanks. -/
theorem footerLevels_spelledAlike_padded :
    (∀ n ∈ [3, -7, 2, 3], inInt64 n = true) ∧
      List.Forall₂ (fun n text => IsPadded text.toList (toString n).toList) [3, -7, 2, 3]
        ["3 ", "-7", "\t2", "\n3"] ∧
      ∃ levels, AreLevelsOf [3, -7, 2, 3] levels ∧
        GivesLevels (.array ([3, -7, 2, 3].map fun n => .number (.integer n))) levels ∧
        GivesLevels (.array (["3 ", "-7", "\t2", "\n3"].map .string)) levels ∧
        GivesLevels (.string (",".intercalate ["3 ", "-7", "\t2", "\n3"])) levels ∧
        levelsOfText (",".intercalate ["3 ", "-7", "\t2", "\n3"]).toList = levels := by
  have hrange : ∀ n ∈ [3, -7, 2, 3], inInt64 n = true := by decide
  have hpadded {text core : List Char} (front back : List Char) (h : text = front ++ core ++ back)
      (hblank : (front ++ back).all isBlankChar = true) : IsPadded text core := by
    rw [List.all_append, Bool.and_eq_true, List.all_eq_true, List.all_eq_true] at hblank
    exact ⟨front, back, h, hblank.1, hblank.2⟩
  have htexts : List.Forall₂ (fun n text => IsPadded text.toList (toString n).toList)
      [3, -7, 2, 3] ["3 ", "-7", "\t2", "\n3"] :=
    .cons (hpadded [] [' '] (by decide) (by decide)) <|
      .cons (hpadded [] [] (by decide) (by decide)) <|
        .cons (hpadded ['\t'] [] (by decide) (by decide)) <|
          .cons (hpadded ['\n'] [] (by decide) (by decide)) .nil
  exact ⟨hrange, htexts, footerLevels_spelledAlike.2.1 _ _ hrange htexts⟩

end Waymark
