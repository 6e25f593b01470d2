import Waymark.Json.Reader

/-!
# Nesting in JSON texts

A reader refuses a text whose containers stand too deep inside one another. Apart from that, the
depth it is given makes no difference: what it reads to one depth it reads to any other depth that
the value keeps, and it stops at the same place.

Two readers of members can be compared step by step. If each member that the first one reads is
read by the second one to the same place, or the second one fails for a reason that can be seen
from the members, then this holds of whole objects as well.

## Main definitions

* `Json.NestedWithin` — at most so many containers stand inside one another
* `Json.IsSpelledBy` — the value of a text, however deep it is nested
* `Compares` — a reader of members that follows another one

## Main results

* `Compares.readMembers` — the comparison of members carries over to objects
* `nestedWithin_of_readValue` — what is read to a depth keeps the depth
* `readValue_of_nestedWithin` — what keeps a depth is read to it
* `readValue_of_readValue` — how a reader of another depth reads the same text
-/

namespace Waymark

/-- At most `depth` containers of the value stand inside one another. -/
def Json.NestedWithin : Nat → Json → Prop
  | 0, .array _ => False
  | 0, .object _ => False
  | depth + 1, .array items => ∀ item ∈ items, item.NestedWithin depth
  | depth + 1, .object members => ∀ member ∈ members, member.2.NestedWithin depth
  | _, _ => True

namespace Json

variable (depth : Nat)

theorem nestedWithin_null : null.NestedWithin depth := by
  cases depth <;> trivial

theorem nestedWithin_boolean (value : Bool) : (boolean value).NestedWithin depth := by
  cases depth <;> trivial

theorem nestedWithin_number (value : Number) : (number value).NestedWithin depth := by
  cases depth <;> trivial

theorem nestedWithin_string (value : String) : (string value).NestedWithin depth := by
  cases depth <;> trivial

variable {depth}

instance decidableNestedWithin :
    (depth : Nat) → (value : Json) → Decidable (value.NestedWithin depth)
  | 0, .array _ => .isFalse id
  | 0, .object _ => .isFalse id
  | depth + 1, .array items =>
    have : ∀ item : Json, Decidable (item.NestedWithin depth) := decidableNestedWithin depth
    inferInstanceAs (Decidable (∀ item ∈ items, item.NestedWithin depth))
  | depth + 1, .object members =>
    have : ∀ member : String × Json, Decidable (member.2.NestedWithin depth) :=
      fun member => decidableNestedWithin depth member.2
    inferInstanceAs (Decidable (∀ member ∈ members, member.2.NestedWithin depth))
  | depth, .null => .isTrue (nestedWithin_null depth)
  | depth, .boolean value => .isTrue (nestedWithin_boolean depth value)
  | depth, .number value => .isTrue (nestedWithin_number depth value)
  | depth, .string value => .isTrue (nestedWithin_string depth value)

theorem NestedWithin.mono {limit : Nat} {value : Json} (h : value.NestedWithin depth)
    (hle : depth ≤ limit) : value.NestedWithin limit := by
  induction limit generalizing depth value with
  | zero => exact Nat.le_zero.mp hle ▸ h
  | succ limit ih =>
    cases depth with
    | zero =>
      cases value with
      | array items => exact h.elim
      | object members => exact h.elim
      | _ => trivial
    | succ depth =>
      have hle := Nat.le_of_succ_le_succ hle
      cases value with
      | array items => exact fun item hitem => ih (h item hitem) hle
      | object members => exact fun member hmember => ih (h member hmember) hle
      | _ => trivial

end Json

/-- The text spells the value, whatever its nesting. -/
def Json.IsSpelledBy (value : Json) (text : String) : Prop :=
  ∃ depth rest, readValue depth text.toList = .ok (value, rest) ∧ isAtEnd rest = true

/-- The reader `follower` follows the reader `leader`: as long as what has been read is `good`, each
member that the leader reads is read by the follower to the same place, and what the two have read
stays related. Otherwise the follower fails, and what the leader has read is `bad` from then on. -/
structure Compares {σ τ : Type} (leader : MemberReader σ) (follower : MemberReader τ)
    (related : σ → τ → Prop) (good bad : σ → Prop) : Prop where
  /-- What is good was good before. -/
  good_of_good : ∀ {state name text next rest},
    leader state name text = .ok (next, rest) → good next → good state
  /-- What is bad stays bad. -/
  bad_of_bad : ∀ {state name text next rest},
    leader state name text = .ok (next, rest) → bad state → bad next
  /-- How the follower reads a member of the leader. -/
  step : ∀ {state other name text next rest}, related state other → good next →
    leader state name text = .ok (next, rest) →
      (∃ next', follower other name text = .ok (next', rest) ∧ related next next') ∨
        ((∃ cause, follower other name text = .error cause) ∧ bad next)

variable {α : Type} {depth limit count : Nat} {text rest : List Char} {value : Json}

theorem bind_eq_ok {ε α β : Type} {x : Except ε α} {f : α → Except ε β} {b : β} :
    (x >>= f) = .ok b ↔ ∃ a, x = .ok a ∧ f a = .ok b := by
  cases x with
  | error cause => simp [bind, Except.bind]
  | ok a => simp [bind, Except.bind]

/-! ### Items -/

theorem readMoreItems_eq_ok_iff {item : Reader α} {items : List α} :
    readMoreItems item (count + 1) text = .ok (items, rest) ↔
      (skipSpace text = ']' :: rest ∧ items = []) ∨
        ∃ behind first middle more, skipSpace text = ',' :: behind ∧
          item behind = .ok (first, middle) ∧
            readMoreItems item count middle = .ok (more, rest) ∧ items = first :: more := by
  rw [readMoreItems]
  dsimp only
  split
  · next behind htokens => simp [htokens, eq_comm, and_comm]
  · next behind htokens =>
    simp only [htokens, bind_eq_ok]
    constructor
    · rintro ⟨⟨first, middle⟩, hfirst, ⟨more, last⟩, hmore, heq⟩
      cases heq
      exact Or.inr ⟨behind, first, middle, more, rfl, hfirst, hmore, rfl⟩
    · rintro (⟨hbracket, -⟩ | ⟨_, first, middle, more, hbehind, hfirst, hmore, rfl⟩)
      · cases hbracket
      · cases hbehind
        exact ⟨(first, middle), hfirst, (more, rest), hmore, rfl⟩
  · next hbracket hcomma =>
    refine iff_of_false (by simp) ?_
    rintro (⟨htokens, -⟩ | ⟨behind, _, _, _, htokens, -⟩)
    · exact hbracket _ htokens
    · exact hcomma _ htokens

theorem readItems_eq_ok_iff {item : Reader α} {items : List α} :
    readItems item text = .ok (items, rest) ↔
      (skipSpace text = ']' :: rest ∧ items = []) ∨
        ((∀ behind, skipSpace text ≠ ']' :: behind) ∧
          ∃ first middle more, item (skipSpace text) = .ok (first, middle) ∧
            readMoreItems item middle.length middle = .ok (more, rest) ∧
              items = first :: more) := by
  rw [readItems]
  dsimp only
  split
  · next behind htokens => simp [htokens, eq_comm, and_comm]
  · next hbracket =>
    simp only [bind_eq_ok]
    constructor
    · rintro ⟨⟨first, middle⟩, hfirst, ⟨more, last⟩, hmore, heq⟩
      cases heq
      exact Or.inr ⟨hbracket, first, middle, more, hfirst, hmore, rfl⟩
    · rintro (⟨htokens, -⟩ | ⟨-, first, middle, more, hfirst, hmore, rfl⟩)
      · exact absurd htokens (hbracket _)
      · exact ⟨(first, middle), hfirst, (more, rest), hmore, rfl⟩

/-- Items that another reader reads as well are read by it to the same place. -/
theorem readMoreItems_of_forall {item other : Reader α} {good : α → Prop}
    (h : ∀ text a rest, item text = .ok (a, rest) → good a → other text = .ok (a, rest))
    {items : List α} (hread : readMoreItems item count text = .ok (items, rest))
    (hgood : ∀ a ∈ items, good a) : readMoreItems other count text = .ok (items, rest) := by
  induction count generalizing text items with
  | zero => cases hread
  | succ count ih =>
    rw [readMoreItems_eq_ok_iff] at hread ⊢
    refine hread.imp_right ?_
    rintro ⟨behind, first, middle, more, htokens, hfirst, hmore, rfl⟩
    obtain ⟨hgoodFirst, hgoodMore⟩ := List.forall_mem_cons.mp hgood
    exact ⟨behind, first, middle, more, htokens, h _ _ _ hfirst hgoodFirst, ih hmore hgoodMore, rfl⟩

theorem readItems_of_forall {item other : Reader α} {good : α → Prop}
    (h : ∀ text a rest, item text = .ok (a, rest) → good a → other text = .ok (a, rest))
    {items : List α} (hread : readItems item text = .ok (items, rest))
    (hgood : ∀ a ∈ items, good a) : readItems other text = .ok (items, rest) := by
  rw [readItems_eq_ok_iff] at hread ⊢
  refine hread.imp_right ?_
  rintro ⟨hbracket, first, middle, more, hfirst, hmore, rfl⟩
  obtain ⟨hgoodFirst, hgoodMore⟩ := List.forall_mem_cons.mp hgood
  exact ⟨hbracket, first, middle, more, h _ _ _ hfirst hgoodFirst,
    readMoreItems_of_forall h hmore hgoodMore, rfl⟩

theorem forall_mem_readMoreItems {item : Reader α} {good : α → Prop}
    (h : ∀ text a rest, item text = .ok (a, rest) → good a)
    {items : List α} (hread : readMoreItems item count text = .ok (items, rest)) :
    ∀ a ∈ items, good a := by
  induction count generalizing text items with
  | zero => cases hread
  | succ count ih =>
    rcases readMoreItems_eq_ok_iff.mp hread with
      ⟨-, rfl⟩ | ⟨behind, first, middle, more, -, hfirst, hmore, rfl⟩
    · exact fun a ha => absurd ha List.not_mem_nil
    · exact List.forall_mem_cons.mpr ⟨h _ _ _ hfirst, ih hmore⟩

theorem forall_mem_readItems {item : Reader α} {good : α → Prop}
    (h : ∀ text a rest, item text = .ok (a, rest) → good a)
    {items : List α} (hread : readItems item text = .ok (items, rest)) : ∀ a ∈ items, good a := by
  rcases readItems_eq_ok_iff.mp hread with
    ⟨-, rfl⟩ | ⟨-, first, middle, more, hfirst, hmore, rfl⟩
  · exact fun a ha => absurd ha List.not_mem_nil
  · exact List.forall_mem_cons.mpr ⟨h _ _ _ hfirst, forall_mem_readMoreItems h hmore⟩

/-! ### Members -/

section Members

variable {σ τ : Type} {member : MemberReader σ} {state next : σ}

/-- A member starts with the quote of its name. Behind the name its own reader goes on. -/
theorem readMember_cases (text : List Char) :
    (∃ name middle, ∀ {σ : Type} (member : MemberReader σ) (state : σ),
        readMember member state text = member state name middle) ∨
      ∃ cause, ∀ {σ : Type} (member : MemberReader σ) (state : σ),
        readMember member state text = .error cause := by
  by_cases hquote : ∃ behind, skipSpace text = '"' :: behind
  · obtain ⟨behind, htokens⟩ := hquote
    cases hname : readString behind with
    | ok found =>
      refine Or.inl ⟨found.1, found.2, fun member state => ?_⟩
      simp only [readMember, htokens, hname]
      rfl
    | error cause =>
      refine Or.inr ⟨cause, fun member state => ?_⟩
      simp only [readMember, htokens, hname]
      rfl
  · refine Or.inr ⟨.malformed, fun member state => ?_⟩
    rw [readMember]
    dsimp only
    split
    · next behind htokens => exact absurd ⟨behind, htokens⟩ hquote
    · rfl

theorem readMoreMembers_eq_ok_iff :
    readMoreMembers member (count + 1) state text = .ok (next, rest) ↔
      (skipSpace text = '\x7d' :: rest ∧ next = state) ∨
        ∃ behind mid middle, skipSpace text = ',' :: behind ∧
          readMember member state behind = .ok (mid, middle) ∧
            readMoreMembers member count mid middle = .ok (next, rest) := by
  rw [readMoreMembers]
  dsimp only
  split
  · next behind htokens => simp [htokens, eq_comm, and_comm]
  · next behind htokens =>
    simp only [htokens, bind_eq_ok]
    constructor
    · rintro ⟨⟨mid, middle⟩, hfirst, hmore⟩
      exact Or.inr ⟨behind, mid, middle, rfl, hfirst, hmore⟩
    · rintro (⟨hbrace, -⟩ | ⟨_, mid, middle, hbehind, hfirst, hmore⟩)
      · cases hbrace
      · cases hbehind
        exact ⟨(mid, middle), hfirst, hmore⟩
  · next hbrace hcomma =>
    refine iff_of_false (by simp) ?_
    rintro (⟨htokens, -⟩ | ⟨behind, _, _, htokens, -⟩)
    · exact hbrace _ htokens
    · exact hcomma _ htokens

variable {keeps : σ → Prop}

theorem readMember_preserves
    (h : ∀ state name text next rest,
      member state name text = .ok (next, rest) → keeps state → keeps next)
    (hread : readMember member state text = .ok (next, rest)) (hstate : keeps state) :
    keeps next := by
  rcases readMember_cases text with ⟨name, middle, hname⟩ | ⟨cause, hname⟩
  · rw [hname] at hread
    exact h _ _ _ _ _ hread hstate
  · rw [hname] at hread
    cases hread

theorem readMoreMembers_preserves
    (h : ∀ state name text next rest,
      member state name text = .ok (next, rest) → keeps state → keeps next)
    (hread : readMoreMembers member count state text = .ok (next, rest)) (hstate : keeps state) :
    keeps next := by
  induction count generalizing state text with
  | zero => cases hread
  | succ count ih =>
    rcases readMoreMembers_eq_ok_iff.mp hread with
      ⟨-, rfl⟩ | ⟨behind, mid, middle, -, hfirst, hmore⟩
    · exact hstate
    · exact ih hmore (readMember_preserves h hfirst hstate)

/-- What every member keeps is kept by a whole object. -/
theorem readMembers_preserves
    (h : ∀ state name text next rest,
      member state name text = .ok (next, rest) → keeps state → keeps next)
    (hread : readMembers member state text = .ok (next, rest)) (hstate : keeps state) :
    keeps next := by
  rw [readMembers] at hread
  dsimp only at hread
  split at hread
  · cases hread
    exact hstate
  · obtain ⟨⟨mid, middle⟩, hfirst, hmore⟩ := bind_eq_ok.mp hread
    exact readMoreMembers_preserves h hmore (readMember_preserves h hfirst hstate)

end Members

namespace Compares

variable {σ τ : Type} {leader : MemberReader σ} {follower : MemberReader τ}
  {related : σ → τ → Prop} {good bad : σ → Prop} {state next : σ} {other : τ}

theorem readMember (h : Compares leader follower related good bad) (hrelated : related state other)
    (hgood : good next) (hread : readMember leader state text = .ok (next, rest)) :
    (∃ next', Waymark.readMember follower other text = .ok (next', rest) ∧ related next next') ∨
      ((∃ cause, Waymark.readMember follower other text = .error cause) ∧ bad next) := by
  rcases readMember_cases text with ⟨name, middle, hname⟩ | ⟨cause, hname⟩
  · rw [hname] at hread ⊢
    exact h.step hrelated hgood hread
  · rw [hname] at hread
    cases hread

/-- What is good behind a run of members was good before it. -/
theorem good_of_readMoreMembers (h : Compares leader follower related good bad)
    (hread : Waymark.readMoreMembers leader count state text = .ok (next, rest))
    (hgood : good next) : good state := by
  have hstep : ∀ state name text next rest,
      leader state name text = .ok (next, rest) → ¬ good state → ¬ good next :=
    fun _ _ _ _ _ hstep hnot hgood => hnot (h.good_of_good hstep hgood)
  exact Classical.byContradiction fun hnot => readMoreMembers_preserves hstep hread hnot hgood

theorem bad_of_readMoreMembers (h : Compares leader follower related good bad)
    (hread : Waymark.readMoreMembers leader count state text = .ok (next, rest))
    (hbad : bad state) : bad next :=
  readMoreMembers_preserves (fun _ _ _ _ _ hstep hbad => h.bad_of_bad hstep hbad) hread hbad

theorem readMoreMembers (h : Compares leader follower related good bad)
    (hrelated : related state other) (hgood : good next)
    (hread : Waymark.readMoreMembers leader count state text = .ok (next, rest)) :
    (∃ next', Waymark.readMoreMembers follower count other text = .ok (next', rest) ∧
        related next next') ∨
      ((∃ cause, Waymark.readMoreMembers follower count other text = .error cause) ∧
        bad next) := by
  induction count generalizing state other text with
  | zero => cases hread
  | succ count ih =>
    rcases readMoreMembers_eq_ok_iff.mp hread with
      ⟨htokens, rfl⟩ | ⟨behind, mid, middle, htokens, hfirst, hmore⟩
    · exact Or.inl ⟨other, readMoreMembers_eq_ok_iff.mpr (Or.inl ⟨htokens, rfl⟩), hrelated⟩
    · have heq : Waymark.readMoreMembers follower (count + 1) other text =
          Waymark.readMember follower other behind >>= fun found =>
            Waymark.readMoreMembers follower count found.1 found.2 := by
        simp only [Waymark.readMoreMembers, htokens]
      rw [heq]
      -- The follower reads the same member and goes on, or it stops at this member for good.
      rcases h.readMember hrelated (h.good_of_readMoreMembers hmore hgood) hfirst with
        ⟨mid', hfirst', hrelated'⟩ | ⟨⟨cause, hfirst'⟩, hbad⟩
      · rw [hfirst']
        exact ih hrelated' hmore
      · rw [hfirst']
        exact Or.inr ⟨⟨cause, rfl⟩, h.bad_of_readMoreMembers hmore hbad⟩

/-- A reader that follows another one through single members follows it through whole objects. -/
theorem readMembers (h : Compares leader follower related good bad)
    (hrelated : related state other) (hgood : good next)
    (hread : Waymark.readMembers leader state text = .ok (next, rest)) :
    (∃ next', Waymark.readMembers follower other text = .ok (next', rest) ∧ related next next') ∨
      ((∃ cause, Waymark.readMembers follower other text = .error cause) ∧ bad next) := by
  rw [Waymark.readMembers] at hread ⊢
  dsimp only at hread ⊢
  generalize skipSpace text = tokens at hread ⊢
  split at hread
  · cases hread
    exact Or.inl ⟨other, rfl, hrelated⟩
  · next hbrace =>
    obtain ⟨⟨mid, middle⟩, hfirst, hmore⟩ := bind_eq_ok.mp hread
    rcases h.readMember hrelated (h.good_of_readMoreMembers hmore hgood) hfirst with
      ⟨mid', hfirst', hrelated'⟩ | ⟨⟨cause, hfirst'⟩, hbad⟩
    · simp only [hfirst']
      exact h.readMoreMembers hrelated' hgood hmore
    · simp only [hfirst']
      exact Or.inr ⟨⟨cause, rfl⟩, h.bad_of_readMoreMembers hmore hbad⟩

end Compares

/-! ### Values -/

theorem readAfterColon_eq_ok_iff {item : Reader α} {a : α} :
    readAfterColon item text = .ok (a, rest) ↔
      ∃ behind, skipSpace text = ':' :: behind ∧ item (skipSpace behind) = .ok (a, rest) := by
  rw [readAfterColon]
  split
  · next behind htokens => simp [htokens]
  · next hcolon =>
    refine iff_of_false (by simp) ?_
    rintro ⟨behind, htokens, -⟩
    exact hcolon _ htokens

theorem collectMember_eq_ok_iff {item : Reader Json} {members next : List (String × Json)}
    {name : String} :
    collectMember item members name text = .ok (next, rest) ↔
      ∃ value, readAfterColon item text = .ok (value, rest) ∧
        next = members ++ [(name, value)] := by
  rw [collectMember]
  simp only [bind_eq_ok]
  constructor
  · rintro ⟨⟨value, last⟩, hvalue, heq⟩
    cases heq
    exact ⟨value, hvalue, rfl⟩
  · rintro ⟨value, hvalue, rfl⟩
    exact ⟨(value, rest), hvalue, rfl⟩

/-- A reader that follows the gathering of members, for a property that all members must have. -/
theorem compares_collectMember {τ : Type} {item : Reader Json} {follower : MemberReader τ}
    {related : List (String × Json) → τ → Prop} {good bad : String × Json → Prop}
    (step : ∀ {members other name text value rest}, related members other → good (name, value) →
      readAfterColon item text = .ok (value, rest) →
        (∃ next, follower other name text = .ok (next, rest) ∧
            related (members ++ [(name, value)]) next) ∨
          ((∃ cause, follower other name text = .error cause) ∧ bad (name, value))) :
    Compares (collectMember item) follower related (fun members => ∀ member ∈ members, good member)
      (fun members => ∃ member ∈ members, bad member) where
  good_of_good hread hgood := by
    obtain ⟨value, -, rfl⟩ := collectMember_eq_ok_iff.mp hread
    exact (List.forall_mem_append.mp hgood).1
  bad_of_bad hread hbad := by
    obtain ⟨value, -, rfl⟩ := collectMember_eq_ok_iff.mp hread
    obtain ⟨member, hmember, hbad⟩ := hbad
    exact ⟨member, List.mem_append_left _ hmember, hbad⟩
  step hrelated hgood hread := by
    obtain ⟨value, hvalue, rfl⟩ := collectMember_eq_ok_iff.mp hread
    have hlast := List.forall_mem_singleton.mp (List.forall_mem_append.mp hgood).2
    refine (step hrelated hlast hvalue).imp_right (And.imp_right fun hbad => ?_)
    exact ⟨_, List.mem_append_right _ List.mem_cons_self, hbad⟩

/-- An array is read item by item, each to one depth less. -/
theorem readValue_array_eq_ok_iff {behind : List Char} (htokens : skipSpace text = '[' :: behind) :
    readValue depth text = .ok (value, rest) ↔
      ∃ inner items, depth = inner + 1 ∧ readItems (readValue inner) behind = .ok (items, rest) ∧
        value = .array items := by
  cases depth with
  | zero =>
    simp [readValue, htokens]
  | succ inner =>
    rw [readValue]
    simp only [htokens, bind_eq_ok]
    constructor
    · rintro ⟨⟨items, last⟩, hitems, heq⟩
      cases heq
      exact ⟨inner, items, rfl, hitems, rfl⟩
    · rintro ⟨_, items, hinner, hitems, rfl⟩
      cases hinner
      exact ⟨(items, rest), hitems, rfl⟩

/-- An object is read member by member, the value of each to one depth less. -/
theorem readValue_object_eq_ok_iff {behind : List Char}
    (htokens : skipSpace text = '\x7b' :: behind) :
    readValue depth text = .ok (value, rest) ↔
      ∃ inner members, depth = inner + 1 ∧
        readMembers (collectMember (readValue inner)) [] behind = .ok (members, rest) ∧
          value = .object members := by
  cases depth with
  | zero =>
    simp [readValue, htokens]
  | succ inner =>
    rw [readValue]
    simp only [htokens, bind_eq_ok]
    constructor
    · rintro ⟨⟨members, last⟩, hmembers, heq⟩
      cases heq
      exact ⟨inner, members, rfl, hmembers, rfl⟩
    · rintro ⟨_, members, hinner, hmembers, rfl⟩
      cases hinner
      exact ⟨(members, rest), hmembers, rfl⟩

theorem eq_of_readWord_eq_ok {word : List Char} {a b : α}
    (h : readWord word a text = .ok (b, rest)) : b = a := by
  rw [readWord] at h
  split at h
  · cases h
    rfl
  · cases h

/-- A value is a container, which starts with its bracket, or the depth makes no difference. -/
theorem readValue_shape (text : List Char) :
    (∃ behind, skipSpace text = '[' :: behind) ∨ (∃ behind, skipSpace text = '\x7b' :: behind) ∨
      ∀ depth value rest, readValue depth text = .ok (value, rest) →
        ∀ limit, value.NestedWithin limit ∧ readValue limit text = .ok (value, rest) := by
  by_cases harray : ∃ behind, skipSpace text = '[' :: behind
  · exact Or.inl harray
  by_cases hobject : ∃ behind, skipSpace text = '\x7b' :: behind
  · exact Or.inr (Or.inl hobject)
  -- A value with no parts is read alike at every limit.
  refine Or.inr (Or.inr fun depth value rest h limit => ?_)
  rw [readValue] at h ⊢
  generalize skipSpace text = tokens at harray hobject h ⊢
  dsimp only at h ⊢
  split at h
  case h_1 => exact ⟨eq_of_readWord_eq_ok h ▸ Json.nestedWithin_null limit, h⟩
  case h_2 => exact ⟨eq_of_readWord_eq_ok h ▸ Json.nestedWithin_boolean limit true, h⟩
  case h_3 => exact ⟨eq_of_readWord_eq_ok h ▸ Json.nestedWithin_boolean limit false, h⟩
  case h_4 =>
    obtain ⟨found, -, heq⟩ := bind_eq_ok.mp h
    cases heq
    exact ⟨Json.nestedWithin_string limit _, h⟩
  case h_5 behind => exact absurd ⟨behind, rfl⟩ harray
  case h_6 behind => exact absurd ⟨behind, rfl⟩ hobject
  case h_7 =>
    obtain ⟨found, -, heq⟩ := bind_eq_ok.mp h
    cases heq
    exact ⟨Json.nestedWithin_number limit _, h⟩

/-- What is read to a depth is nested no deeper. -/
theorem nestedWithin_of_readValue (h : readValue depth text = .ok (value, rest)) :
    value.NestedWithin depth := by
  induction depth using Nat.strongRecOn generalizing text value rest with
  | ind depth ih =>
    rcases readValue_shape text with ⟨_, htokens⟩ | ⟨_, htokens⟩ | hshape
    · obtain ⟨inner, items, rfl, hitems, rfl⟩ := (readValue_array_eq_ok_iff htokens).mp h
      exact forall_mem_readItems (fun _ _ _ => ih inner (Nat.lt_succ_self _)) hitems
    · obtain ⟨inner, members, rfl, hmembers, rfl⟩ := (readValue_object_eq_ok_iff htokens).mp h
      have hstep : ∀ (members : List (String × Json)) name text next rest,
          collectMember (readValue inner) members name text = .ok (next, rest) →
            (∀ member ∈ members, member.2.NestedWithin inner) →
              ∀ member ∈ next, member.2.NestedWithin inner := by
        intro members name text next rest hstep hmembers
        obtain ⟨value, hvalue, rfl⟩ := collectMember_eq_ok_iff.mp hstep
        obtain ⟨behind, -, hvalue⟩ := readAfterColon_eq_ok_iff.mp hvalue
        exact List.forall_mem_append.mpr
          ⟨hmembers, List.forall_mem_singleton.mpr (ih inner (Nat.lt_succ_self _) hvalue)⟩
      have hall := readMembers_preserves hstep hmembers fun _ hnil => absurd hnil List.not_mem_nil
      exact hall
    · exact (hshape _ _ _ h _).1

/-- Only an opening brace starts an object. -/
theorem exists_of_readValue_object {members : List (String × Json)}
    (h : readValue depth text = .ok (.object members, rest)) :
    ∃ behind inner, skipSpace text = '\x7b' :: behind ∧
      readMembers (collectMember (readValue inner)) [] behind = .ok (members, rest) := by
  rcases readValue_shape text with ⟨_, htokens⟩ | ⟨behind, htokens⟩ | hshape
  · obtain ⟨_, _, -, -, hvalue⟩ := (readValue_array_eq_ok_iff htokens).mp h
    cases hvalue
  · obtain ⟨inner, _, -, hmembers, hvalue⟩ := (readValue_object_eq_ok_iff htokens).mp h
    cases hvalue
    exact ⟨behind, inner, htokens, hmembers⟩
  · exact (hshape _ _ _ h 0).1.elim

/-- What is nested no deeper than a limit is read to the limit, whatever depth it was read to. -/
theorem readValue_of_nestedWithin (h : readValue depth text = .ok (value, rest))
    (hvalue : value.NestedWithin limit) : readValue limit text = .ok (value, rest) := by
  induction limit generalizing depth text value rest with
  | zero =>
    rcases readValue_shape text with ⟨_, htokens⟩ | ⟨_, htokens⟩ | hshape
    · obtain ⟨inner, items, rfl, hitems, rfl⟩ := (readValue_array_eq_ok_iff htokens).mp h
      exact hvalue.elim
    · obtain ⟨inner, members, rfl, hmembers, rfl⟩ := (readValue_object_eq_ok_iff htokens).mp h
      exact hvalue.elim
    · exact (hshape _ _ _ h 0).2
  | succ limit ih =>
    rcases readValue_shape text with ⟨_, htokens⟩ | ⟨_, htokens⟩ | hshape
    · obtain ⟨inner, items, rfl, hitems, rfl⟩ := (readValue_array_eq_ok_iff htokens).mp h
      exact (readValue_array_eq_ok_iff htokens).mpr
        ⟨limit, items, rfl, readItems_of_forall (fun _ _ _ => ih) hitems hvalue, rfl⟩
    · obtain ⟨inner, members, rfl, hmembers, rfl⟩ := (readValue_object_eq_ok_iff htokens).mp h
      refine (readValue_object_eq_ok_iff htokens).mpr ⟨limit, members, rfl, ?_, rfl⟩
      have hfollows : Compares (collectMember (readValue inner)) (collectMember (readValue limit))
          Eq (fun members => ∀ member ∈ members, member.2.NestedWithin limit)
          (fun members => ∃ member ∈ members, False) :=
        compares_collectMember fun {members other name text value rest} heq hgood hread => by
          obtain ⟨behind, htokens, hread⟩ := readAfterColon_eq_ok_iff.mp hread
          subst heq
          exact Or.inl ⟨_, collectMember_eq_ok_iff.mpr
            ⟨value, readAfterColon_eq_ok_iff.mpr ⟨behind, htokens, ih hread hgood⟩, rfl⟩, rfl⟩
      rcases hfollows.readMembers rfl hvalue hmembers with ⟨_, hread, rfl⟩ | ⟨-, -, -, hfalse⟩
      · exact hread
      · exact hfalse.elim
    · exact (hshape _ _ _ h _).2

/-- What one depth reads, another one reads if it is nested no deeper, and refuses otherwise. -/
theorem readValue_of_readValue (h : readValue depth text = .ok (value, rest)) (limit : Nat) :
    (value.NestedWithin limit ∧ readValue limit text = .ok (value, rest)) ∨
      (¬ value.NestedWithin limit ∧ ∃ cause, readValue limit text = .error cause) := by
  by_cases hvalue : value.NestedWithin limit
  · exact Or.inl ⟨hvalue, readValue_of_nestedWithin h hvalue⟩
  refine Or.inr ⟨hvalue, ?_⟩
  cases hread : readValue limit text with
  | error cause => exact ⟨cause, rfl⟩
  | ok found =>
    have hfound := nestedWithin_of_readValue hread
    rcases Nat.le_total depth limit with hle | hle
    · exact absurd ((nestedWithin_of_readValue h).mono hle) hvalue
    · have heq := (readValue_of_nestedWithin hread (hfound.mono hle)).symm.trans h
      cases heq
      exact absurd hfound hvalue

/-! ### Arrays inside one another -/

/-- An empty array inside so many others. -/
def Json.nestedArray : Nat → Json
  | 0 => .array []
  | count + 1 => .array [nestedArray count]

/-- The text of an empty array inside so many others. -/
def nestedArrayText : Nat → List Char
  | 0 => ['[', ']']
  | count + 1 => '[' :: nestedArrayText count ++ [']']

theorem Json.nestedWithin_nestedArray_iff :
    (nestedArray count).NestedWithin depth ↔ count < depth := by
  induction count generalizing depth with
  | zero =>
    cases depth with
    | zero => exact iff_of_false id (Nat.lt_irrefl 0)
    | succ depth =>
      exact iff_of_true (fun _ hitem => absurd hitem List.not_mem_nil) (Nat.succ_pos _)
  | succ count ih =>
    cases depth with
    | zero => exact iff_of_false id (Nat.not_lt_zero _)
    | succ depth => exact List.forall_mem_singleton.trans (ih.trans Nat.succ_lt_succ_iff.symm)

theorem skipSpace_nestedArrayText (count : Nat) (rest : List Char) :
    skipSpace (nestedArrayText count ++ rest) = nestedArrayText count ++ rest := by
  cases count <;> rfl

theorem readValue_nestedArrayText (count : Nat) (rest : List Char) :
    readValue (count + 1) (nestedArrayText count ++ rest) =
      .ok (Json.nestedArray count, rest) := by
  induction count generalizing rest with
  | zero =>
    exact (readValue_array_eq_ok_iff rfl).mpr
      ⟨0, [], rfl, readItems_eq_ok_iff.mpr (Or.inl ⟨rfl, rfl⟩), rfl⟩
  | succ count ih =>
    have htokens : skipSpace (nestedArrayText (count + 1) ++ rest) =
        '[' :: (nestedArrayText count ++ ']' :: rest) := by
      rw [skipSpace_nestedArrayText, nestedArrayText]
      simp
    have hbracket : ∀ behind,
        skipSpace (nestedArrayText count ++ ']' :: rest) ≠ ']' :: behind := by
      intro behind h
      cases count <;> cases h
    refine (readValue_array_eq_ok_iff htokens).mpr ⟨count + 1, [.nestedArray count], rfl, ?_, rfl⟩
    refine readItems_eq_ok_iff.mpr (Or.inr ⟨hbracket, .nestedArray count, ']' :: rest, [], ?_⟩)
    rw [skipSpace_nestedArrayText]
    exact ⟨ih _, readMoreItems_eq_ok_iff.mpr (Or.inl ⟨rfl, rfl⟩), rfl⟩

end Waymark
