import Waymark.Proofs.Holding
import Waymark.Vault.Holder

/-!
# Holding paths through copies of a holder

The plain rule of holding looks back: a path is held at a time if the last call that held or
released it held it, and less than the duration of a hold has passed since. It knows no table of
deadlines and drops nothing. Whatever is called on the copies of a holder, one after the other,
the answers are those of the plain rule.

## Main definitions

* `Holder.IsCopyOf` — a holder that came about by copying another one, perhaps several times
* `heldAfter`, `plainAnswers` — the plain rule, and the answers that it gives
* `Tracks` — the tables know what the plain rule finds in the calls so far
* `KeepsDeadlines` — a sequence of calls is answered by the plain rule

## Main results

* `Tracks.run` — one call is answered by the plain rule, and the tables go on knowing it
* `Tracks.runAll` — so is a sequence of calls
* `keepsDeadlines_create` — the copies of a new holder are answered by the plain rule
-/

namespace Waymark

/-- The second holder is the first one or a copy of a copy of it. -/
inductive Holder.IsCopyOf (holder : Holder) : Holder → Prop
  | self : IsCopyOf holder holder
  | copy {other : Holder} : IsCopyOf holder other → IsCopyOf holder other.copy

/-! ### The plain rule -/

/-- The call holds or releases the path, in whatever spelling. -/
def HoldCall.settles (path : Path) (call : HoldCall) : Bool :=
  match call.request with
  | .hold other | .release other => path.same other
  | .isHeld _ => false

/-- The call holds some path. -/
def HoldCall.takesHold (call : HoldCall) : Bool :=
  match call.request with
  | .hold _ => true
  | _ => false

/-- The call asks whether some path is held. -/
def HoldCall.asks (call : HoldCall) : Bool :=
  match call.request with
  | .isHeld _ => true
  | _ => false

/-- The plain rule: after the given calls, the path is held at the time `now` if the last call that
held or released it held it, less than `duration` before. -/
def heldAfter (before : List HoldCall) (duration : Nat) (path : Path) (now : Nat) : Bool :=
  match (before.filter (·.settles path)).getLast? with
  | some last => last.takesHold && now < last.now + duration
  | none => false

/-- The answer that the plain rule gives to a call, if it asks for one. -/
def HoldCall.plainAnswer (duration : Nat) (before : List HoldCall) (call : HoldCall) :
    Option Bool :=
  match call.request with
  | .isHeld path => some (heldAfter before duration path call.now)
  | _ => none

/-- The answers that the plain rule gives to some calls that follow the given ones. -/
def plainAnswers (duration : Nat) (before : List HoldCall) : List HoldCall → List (Option Bool)
  | [] => []
  | call :: rest =>
    call.plainAnswer duration before :: plainAnswers duration (before ++ [call]) rest

/-- The calls are answered by the plain rule: `tables` is what they start from. -/
structure KeepsDeadlines (holder : Holder) (tables : HoldTables) (calls : List HoldCall) :
    Prop where
  /-- Every answer is that of the plain rule. -/
  answers : (runHoldCalls tables calls).1 = plainAnswers holder.duration [] calls
  /-- Asking for a path drops what has expired, and that changes no answer to a later call. -/
  asking : ∀ before call after, calls = before ++ call :: after → call.asks = true →
    (runHoldCalls (runHoldCalls tables (before ++ [call])).2 after).1 =
      (runHoldCalls (runHoldCalls tables before).2 after).1
  /-- A path that is held afterwards, whether or not it is held already, is held for the duration
  of a hold from then on. An earlier hold of it would not have lasted longer. -/
  holding : ∀ path now time, (∀ call ∈ calls, call.now ≤ now) → now ≤ time →
    let after := (runHoldCalls tables calls).2
    ((holder.isHeld (holder.hold after path now) path time).1 = true ↔
        time < now + holder.duration) ∧
      ((holder.isHeld after path time).1 = true →
        (holder.isHeld (holder.hold after path now) path time).1 = true)
  /-- A hold of no duration holds nothing. -/
  nothing : holder.duration = 0 → some true ∉ (runHoldCalls tables calls).1

variable {holder other : Holder} {tables : HoldTables} {holds : Holds} {call : HoldCall}
variable {calls before after : List HoldCall} {path : Path} {duration now time : Nat}

/-! ### Copies and tables -/

/-- A copy refers to the same table, and holds for as long. -/
theorem Holder.IsCopyOf.eq (h : holder.IsCopyOf other) : other = holder := by
  induction h with
  | self => rfl
  | copy _ ih => exact ih

namespace Holder

/-- What a call leaves is what the holder, and each copy of it, finds afterwards. -/
theorem holds_update (htable : holder.table < tables.length)
    (hduration : holds.duration = holder.duration) :
    holder.holds (holder.update tables holds) = holds := by
  simp only [Holder.holds, update, List.getElem?_set_self htable, Option.getD_some, ← hduration]

@[simp] theorem length_update : (holder.update tables holds).length = tables.length :=
  List.length_set

theorem holds_create (tables : HoldTables) (duration : Nat) :
    (create tables duration).1.holds (create tables duration).2 = ⟨duration, []⟩ := by
  simp [Holder.holds, create]

end Holder

theorem runHoldCalls_cons : runHoldCalls tables (call :: after) =
    ((call.run tables).1 :: (runHoldCalls (call.run tables).2 after).1,
      (runHoldCalls (call.run tables).2 after).2) := rfl

theorem runHoldCalls_append : runHoldCalls tables (before ++ after) =
    ((runHoldCalls tables before).1 ++ (runHoldCalls (runHoldCalls tables before).2 after).1,
      (runHoldCalls (runHoldCalls tables before).2 after).2) := by
  induction before generalizing tables with
  | nil => rfl
  | cons call rest ih =>
    rw [List.cons_append, runHoldCalls_cons, runHoldCalls_cons, ih]
    rfl

/-! ### The plain rule, call by call -/

theorem heldAfter_concat_of_settles (h : call.settles path = true) :
    heldAfter (before ++ [call]) duration path time =
      (call.takesHold && decide (time < call.now + duration)) := by
  simp [heldAfter, List.filter_append, h]

theorem heldAfter_concat_of_not_settles (h : call.settles path = false) :
    heldAfter (before ++ [call]) duration path time = heldAfter before duration path time := by
  simp [heldAfter, List.filter_append, h]

theorem HoldCall.settles_of_asks (h : call.asks = true) : call.settles path = false := by
  unfold asks at h
  unfold settles
  split at h
  · rename_i hrequest
    rw [hrequest]
  · cases h

/-- No hold that was taken so far lasts longer than one that is taken now. -/
theorem lt_of_heldAfter (hbefore : ∀ call ∈ before, call.now ≤ now)
    (h : heldAfter before duration path time = true) : time < now + duration := by
  unfold heldAfter at h
  split at h
  · rename_i last hlast
    have hmem : last ∈ before := (List.mem_filter.mp (List.mem_of_getLast? hlast)).1
    simp only [Bool.and_eq_true, decide_eq_true_eq] at h
    exact Nat.lt_of_lt_of_le h.2 (Nat.add_le_add_right (hbefore last hmem) _)
  · cases h

/-- The plain rule looks at the earlier calls only for what is held after them. -/
theorem plainAnswers_congr {earlier : List HoldCall}
    (h : ∀ path time, heldAfter earlier duration path time = heldAfter before duration path time) :
    plainAnswers duration earlier calls = plainAnswers duration before calls := by
  induction calls generalizing earlier before with
  | nil => rfl
  | cons call rest ih =>
    have hanswer : call.plainAnswer duration earlier = call.plainAnswer duration before := by
      simp only [HoldCall.plainAnswer, h]
    rw [plainAnswers, plainAnswers, hanswer, ih fun path time => ?_]
    -- The call settles the path after both, or after neither.
    cases hsettles : call.settles path with
    | true => rw [heldAfter_concat_of_settles hsettles, heldAfter_concat_of_settles hsettles]
    | false =>
      rw [heldAfter_concat_of_not_settles hsettles, heldAfter_concat_of_not_settles hsettles, h]

/-- A hold of no duration is over when it begins. -/
theorem not_mem_plainAnswers (hbefore : ∀ earlier ∈ before, ∀ call ∈ calls, earlier.now ≤ call.now)
    (hclock : calls.Pairwise (·.now ≤ ·.now)) : some true ∉ plainAnswers 0 before calls := by
  induction calls generalizing before with
  | nil => exact List.not_mem_nil
  | cons call rest ih =>
    obtain ⟨hfirst, hrest⟩ := List.pairwise_cons.mp hclock
    rw [plainAnswers, List.mem_cons, not_or]
    refine ⟨fun htrue => ?_, ih (fun earlier hearlier later hlater => ?_) hrest⟩
    · unfold HoldCall.plainAnswer at htrue
      split at htrue
      · have hheld := (Option.some.inj htrue).symm
        have hlt := lt_of_heldAfter (fun earlier hmem => hbefore earlier hmem call (by simp)) hheld
        exact absurd hlt (by simp)
      · cases htrue
    · rcases List.mem_append.mp hearlier with hmem | hmem
      · exact hbefore earlier hmem later (List.mem_cons_of_mem _ hlater)
      · obtain rfl : earlier = call := by simpa using hmem
        exact hfirst later hlater

/-! ### One call -/

/-- The tables know what the plain rule finds in the calls so far, for the time behind them. -/
structure Tracks (holder : Holder) (before : List HoldCall) (tables : HoldTables) : Prop where
  /-- There is a table for the holder. -/
  table_lt : holder.table < tables.length
  /-- From now on, a path is held when the plain rule says so. -/
  isHeld_eq : ∀ path time, (∀ earlier ∈ before, earlier.now ≤ time) →
    ((holder.holds tables).isHeld path time).1 = heldAfter before holder.duration path time

namespace Tracks

theorem create (tables : HoldTables) (duration : Nat) :
    Tracks (Holder.create tables duration).1 [] (Holder.create tables duration).2 where
  table_lt := by simp [Holder.create]
  isHeld_eq path time _ := by
    rw [Holder.holds_create]
    rfl

/-- The tables know of a call if the holds that it leaves agree with the plain rule. -/
theorem concat (h : Tracks holder before tables) (hduration : holds.duration = holder.duration)
    (hheld : ∀ path time, (∀ earlier ∈ before, earlier.now ≤ time) → call.now ≤ time →
      (holds.isHeld path time).1 = heldAfter (before ++ [call]) holder.duration path time) :
    Tracks holder (before ++ [call]) (holder.update tables holds) where
  table_lt := by simpa using h.table_lt
  isHeld_eq path time htime := by
    rw [List.forall_mem_append, List.forall_mem_singleton] at htime
    rw [Holder.holds_update h.table_lt hduration]
    exact hheld path time htime.1 htime.2

theorem hold (h : Tracks holder before tables) (path : Path) (now : Nat) :
    Tracks holder (before ++ [⟨holder, .hold path, now⟩]) (holder.hold tables path now) := by
  refine h.concat rfl fun asked time htime _ => ?_
  by_cases hsame : asked.components = path.components
  · have hsettles : HoldCall.settles asked ⟨holder, .hold path, now⟩ = true :=
      Path.same_iff.mpr hsame
    rw [heldAfter_concat_of_settles hsettles, Holds.isHeld_of_same hsame, Bool.eq_iff_iff,
      Holds.isHeld_hold_self_iff]
    simp [HoldCall.takesHold, Holder.holds]
  · have hsettles : HoldCall.settles asked ⟨holder, .hold path, now⟩ = false :=
      Path.same_eq_false_iff.mpr hsame
    rw [heldAfter_concat_of_not_settles hsettles, Holds.isHeld_hold_other hsame]
    exact h.isHeld_eq asked time htime

theorem release (h : Tracks holder before tables) (path : Path) (now : Nat) :
    Tracks holder (before ++ [⟨holder, .release path, now⟩]) (holder.release tables path) := by
  refine h.concat rfl fun asked time htime _ => ?_
  by_cases hsame : asked.components = path.components
  · have hsettles : HoldCall.settles asked ⟨holder, .release path, now⟩ = true :=
      Path.same_iff.mpr hsame
    rw [heldAfter_concat_of_settles hsettles, Holds.isHeld_of_same hsame,
      Holds.isHeld_release_self]
    rfl
  · have hsettles : HoldCall.settles asked ⟨holder, .release path, now⟩ = false :=
      Path.same_eq_false_iff.mpr hsame
    rw [heldAfter_concat_of_not_settles hsettles, Holds.isHeld_release_other hsame]
    exact h.isHeld_eq asked time htime

/-- What asking drops had expired, so it is missed at no later time. -/
theorem isHeld (h : Tracks holder before tables) (path : Path) (now : Nat) :
    Tracks holder (before ++ [⟨holder, .isHeld path, now⟩]) (holder.isHeld tables path now).2 := by
  refine h.concat rfl fun asked time htime hnow => ?_
  rw [heldAfter_concat_of_not_settles rfl]
  exact (congrArg Prod.fst (Holds.isHeld_purge hnow)).trans (h.isHeld_eq asked time htime)

/-- A call at a time that is not before the earlier calls is answered by the plain rule, and the
tables know of it. -/
theorem run (h : Tracks holder before tables) (hholder : call.holder = holder)
    (hclock : ∀ earlier ∈ before, earlier.now ≤ call.now) :
    (call.run tables).1 = call.plainAnswer holder.duration before ∧
      Tracks holder (before ++ [call]) (call.run tables).2 := by
  obtain ⟨_, request, now⟩ := call
  subst hholder
  cases request with
  | hold path => exact ⟨rfl, h.hold path now⟩
  | release path => exact ⟨rfl, h.release path now⟩
  | isHeld path => exact ⟨congrArg some (h.isHeld_eq path now hclock), h.isHeld path now⟩

/-! ### A sequence of calls -/

/-- A sequence of calls is answered by the plain rule, and the tables know of it afterwards. -/
theorem runAll (h : Tracks holder before tables) (hholder : ∀ call ∈ calls, call.holder = holder)
    (hclock : (before ++ calls).Pairwise (·.now ≤ ·.now)) :
    (runHoldCalls tables calls).1 = plainAnswers holder.duration before calls ∧
      Tracks holder (before ++ calls) (runHoldCalls tables calls).2 := by
  induction calls generalizing before tables with
  | nil =>
    rw [List.append_nil]
    exact ⟨rfl, h⟩
  | cons call rest ih =>
    rw [List.forall_mem_cons] at hholder
    have hearlier : ∀ earlier ∈ before, earlier.now ≤ call.now := fun earlier hmem =>
      (List.pairwise_append.mp hclock).2.2 earlier hmem call List.mem_cons_self
    -- The first call belongs to the history of those behind it.
    obtain ⟨hanswer, hafter⟩ := h.run hholder.1 hearlier
    rw [List.append_cons] at hclock ⊢
    obtain ⟨hanswers, hlast⟩ := ih hafter hholder.2 hclock
    rw [runHoldCalls_cons]
    exact ⟨by rw [hanswer, hanswers, plainAnswers], hlast⟩

/-- The answers to later calls are the same if a call that only asks is left out. -/
theorem runAll_asking (h : Tracks holder before tables)
    (hholder : ∀ other ∈ call :: after, other.holder = holder)
    (hclock : (before ++ call :: after).Pairwise (·.now ≤ ·.now)) (hasks : call.asks = true) :
    (runHoldCalls (call.run tables).2 after).1 = (runHoldCalls tables after).1 := by
  rw [List.forall_mem_cons] at hholder
  have hearlier : ∀ earlier ∈ before, earlier.now ≤ call.now := fun earlier hmem =>
    (List.pairwise_append.mp hclock).2.2 earlier hmem call List.mem_cons_self
  have hwithout : (before ++ after).Pairwise (·.now ≤ ·.now) :=
    hclock.sublist ((List.sublist_cons_self call after).append_left before)
  rw [List.append_cons] at hclock
  -- Both are answered by the plain rule, which passes over a call that only asks.
  rw [((h.run hholder.1 hearlier).2.runAll hholder.2 hclock).1,
    (h.runAll hholder.2 hwithout).1]
  exact plainAnswers_congr fun path time =>
    heldAfter_concat_of_not_settles (HoldCall.settles_of_asks hasks)

/-- A path that is held, or held again, is held for the whole duration of a hold. -/
theorem isHeld_hold (h : Tracks holder before tables) (hnow : ∀ earlier ∈ before, earlier.now ≤ now)
    (htime : now ≤ time) :
    (holder.isHeld (holder.hold tables path now) path time).1 =
      decide (time < now + holder.duration) := by
  have hearlier : ∀ call ∈ before ++ [⟨holder, .hold path, now⟩], call.now ≤ time := by
    rw [List.forall_mem_append, List.forall_mem_singleton]
    exact ⟨fun earlier hmem => Nat.le_trans (hnow earlier hmem) htime, htime⟩
  have hsettles : HoldCall.settles path ⟨holder, .hold path, now⟩ = true := Path.same_iff.mpr rfl
  exact ((h.hold path now).isHeld_eq path time hearlier).trans
    (heldAfter_concat_of_settles hsettles)

end Tracks

/-- Whatever is called on copies of a new holder, at times that do not go back, is answered by the
plain rule. -/
theorem keepsDeadlines_create (tables : HoldTables) (duration : Nat) (calls : List HoldCall)
    (hcopies : ∀ call ∈ calls, (Holder.create tables duration).1.IsCopyOf call.holder)
    (hclock : calls.Pairwise (·.now ≤ ·.now)) :
    KeepsDeadlines (Holder.create tables duration).1 (Holder.create tables duration).2 calls := by
  have hstart := Tracks.create tables duration
  have hholder : ∀ call ∈ calls, call.holder = (Holder.create tables duration).1 :=
    fun call hmem => (hcopies call hmem).eq
  obtain ⟨hanswers, hafter⟩ := hstart.runAll hholder hclock
  rw [List.nil_append] at hafter
  refine ⟨hanswers, ?_, fun path now time hnow htime => ⟨?_, fun hheld => ?_⟩, fun hzero => ?_⟩
  · rintro before call after rfl hasks
    rw [List.forall_mem_append] at hholder
    have hbefore : before.Pairwise (·.now ≤ ·.now) := (List.pairwise_append.mp hclock).1
    rw [runHoldCalls_append]
    exact (hstart.runAll hholder.1 hbefore).2.runAll_asking hholder.2 hclock hasks
  · rw [hafter.isHeld_hold hnow htime, decide_eq_true_eq]
  · -- The earlier holds of the path all end before this one does.
    have hlasts : heldAfter calls duration path time = true :=
      (hafter.isHeld_eq path time fun call hmem => Nat.le_trans (hnow call hmem) htime).symm.trans
        hheld
    rw [hafter.isHeld_hold hnow htime, decide_eq_true_eq]
    exact lt_of_heldAfter hnow hlasts
  · rw [hanswers, hzero]
    exact not_mem_plainAnswers (fun _ hmem => by cases hmem) hclock

/-- Where a path is held, asked for, held again and released through a holder, its copy and a copy
of that, in several spellings, while another path is held. -/
theorem keepsDeadlines_heldAgain :
    let tables : HoldTables := [[([.name ['x']], 900)]]
    let holder := (Holder.create tables 500).1
    let start := (Holder.create tables 500).2
    let path : Path := .ofString "notes/a.md"
    let calls : List HoldCall :=
      [⟨holder, .hold (.ofString "notes//a.md"), 0⟩, ⟨holder.copy, .hold (.ofString "b.md"), 100⟩,
        ⟨holder.copy.copy, .isHeld path, 499⟩, ⟨holder.copy, .hold path, 499⟩,
        ⟨holder, .isHeld (.ofString "notes/./a.md/"), 998⟩,
        ⟨holder, .isHeld (.ofString "b.md"), 998⟩,
        ⟨holder.copy, .isHeld path, 999⟩, ⟨holder, .hold path, 999⟩,
        ⟨holder.copy, .release path, 1000⟩, ⟨holder, .isHeld path, 1000⟩]
    (∀ call ∈ calls, holder.IsCopyOf call.holder) ∧ calls.Pairwise (·.now ≤ ·.now) ∧
      KeepsDeadlines holder start calls ∧ (runHoldCalls start calls).1 =
        [none, none, some true, none, some true, some false, some false, none, none,
          some false] := by
  intro tables holder start path calls
  have hcopies : ∀ call ∈ calls, holder.IsCopyOf call.holder := by
    have hcopy : holder.IsCopyOf holder.copy := .copy .self
    simp only [calls, List.forall_mem_cons]
    exact ⟨.self, hcopy, .copy hcopy, hcopy, .self, .self, hcopy, .self, hcopy, .self,
      List.forall_mem_nil _⟩
  have hclock : calls.Pairwise (·.now ≤ ·.now) := by decide +kernel
  exact ⟨hcopies, hclock, keepsDeadlines_create tables 500 calls hcopies hclock, by decide +kernel⟩

end Waymark
