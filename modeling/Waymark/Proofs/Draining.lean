import Waymark.Proofs.Batches
import Waymark.Vault.Feed

/-!
# Draining a feed

The arrivals of a feed are cut into windows by their times, and the receiver hands on the batches
of these windows. A window begins with the first event that was not received before. It ends not
before the collection time has passed since that event was received, and it holds every event that
arrives up to its end. When exactly it ends depends on the pauses of the receiver; a receiver
without pauses ends it when the collection time is over.

## Main definitions

* `Cut` — the arrivals are cut into windows
* `Feed.Collects` — what the receiver takes out of the feed

## Main results

* `Feed.exists_collects_collectDuring`, `Feed.exists_collects_collectPresent` — what the two ways
  of collecting take
* `Feed.exists_stop_collect` — a window is what arrives up to its end
* `Feed.exists_cut_drainFrom` — the batches are those of the windows of a cut
* `Feed.delivers_drain` — nothing is lost and nothing is told twice, however things go
-/

namespace Waymark

/-- The arrivals are cut into windows, where the receiver waits for the first one from the time
`now` on. If it is prompt, each window lasts exactly as long as events are to be collected. -/
inductive Cut (debounce : Nat) (prompt : Prop) :
    Nat → List Arrival → List (List Arrival) → Prop
  /-- Nothing is left. -/
  | nil (now : Nat) : Cut debounce prompt now [] []
  /-- The next window begins with the first arrival and holds all that arrive up to the time
  `stop`. The others are cut from that time on. -/
  | window {now : Nat} {first : Arrival} {rest : List Arrival} (stop : Nat)
      {windows : List (List Arrival)} (hstop : max now first.time + debounce ≤ stop)
      (hprompt : prompt → stop = max now first.time + debounce)
      (hrest : Cut debounce prompt stop (rest.dropWhile (·.time ≤ stop)) windows) :
      Cut debounce prompt now (first :: rest)
        ((first :: rest.takeWhile (·.time ≤ stop)) :: windows)

variable {debounce start now later limit : Nat} {prompt prompt' : Prop}
variable {arrivals taken : List Arrival} {windows : List (List Arrival)}
variable {batch : List Path} {feed before between after : Feed}

/-! ### Cuts -/

namespace Cut

/-- Nothing is lost and nothing is there twice. -/
theorem flatten_eq (h : Cut debounce prompt now arrivals windows) : windows.flatten = arrivals := by
  induction h with
  | nil => rfl
  | window stop hstop hprompt hrest ih =>
    rw [List.flatten_cons, ih, List.cons_append, List.takeWhile_append_dropWhile]

theorem imp (himp : prompt' → prompt) (h : Cut debounce prompt now arrivals windows) :
    Cut debounce prompt' now arrivals windows := by
  induction h with
  | nil => exact .nil _
  | window stop hstop hprompt hrest ih => exact .window stop hstop (hprompt ∘ himp) ih

/-- The time from which the receiver waits matters only if something is left to arrive. -/
theorem of_now (hnow : arrivals ≠ [] → now = later)
    (h : Cut debounce prompt now arrivals windows) :
    Cut debounce prompt later arrivals windows := by
  cases h with
  | nil => exact .nil _
  | window stop hstop hprompt hrest =>
    obtain rfl := hnow (List.cons_ne_nil _ _)
    exact .window stop hstop hprompt hrest

end Cut

/-- Arrivals up to a time are cut off in front of the first one that comes later. -/
theorem cut_append {stop : Nat} {early late : List Arrival}
    (hearly : ∀ arrival ∈ early, arrival.time ≤ stop)
    (hlate : ∀ first ∈ late.head?, stop < first.time) :
    (early ++ late).takeWhile (·.time ≤ stop) = early ∧
      (early ++ late).dropWhile (·.time ≤ stop) = late := by
  have hall : ∀ arrival ∈ early, decide (arrival.time ≤ stop) = true :=
    fun arrival hmem => decide_eq_true (hearly arrival hmem)
  rw [List.takeWhile_append_of_pos hall, List.dropWhile_append_of_pos hall]
  cases late with
  | nil => simp
  | cons first rest =>
    have hnot : ¬ first.time ≤ stop := Nat.not_le.mpr (hlate first rfl)
    simp [hnot]

/-! ### Batches from events -/

theorem batchOf_eq_foldl (window : List ChangeEvent) :
    batchOf window = window.foldl addChanged [] := by
  rw [batchOf, List.foldl_flatMap]
  rfl

theorem batches_cons (window : List ChangeEvent) (rest : List (List ChangeEvent)) :
    batches (window :: rest) =
      if (batchOf window).isEmpty then batches rest else batchOf window :: batches rest := by
  cases hbatch : (batchOf window).isEmpty <;> simp [batches, hbatch]

/-- A window without events makes no batch. -/
theorem batches_filter (windows : List (List ChangeEvent)) :
    batches (windows.filter (!·.isEmpty)) = batches windows := by
  induction windows with
  | nil => rfl
  | cons window rest ih =>
    cases window with
    | nil => exact ih
    | cons event others =>
      rw [List.filter_cons_of_pos rfl, batches_cons, batches_cons, ih]

namespace Feed

/-! ### What the receiver takes -/

/-- The receiver took some of the pending events, which had all arrived by then. -/
structure Collects (before : Feed) (taken : List Arrival) (after : Feed) : Prop where
  /-- The events that were taken are the first ones. -/
  pending : before.pending = taken ++ after.pending
  /-- The clock does not go back. -/
  now_le : before.now ≤ after.now
  /-- Nothing was taken before it arrived. -/
  arrived : ∀ arrival ∈ taken, arrival.time ≤ after.now
  /-- The receiver makes no pauses but those of the feed. -/
  pauses : before.pauses = [] → after.pauses = []

theorem now_le_pause : feed.now ≤ feed.pause.now := Nat.le_add_right _ _

theorem pause_eq_self (hprompt : feed.pauses = []) : feed.pause = feed := by
  cases feed
  simp_all [pause]

theorem pause_pause_eq_self (hprompt : feed.pauses = []) : feed.pause.pause = feed := by
  rw [pause_eq_self hprompt, pause_eq_self hprompt]

theorem Collects.trans {others : List Arrival} (h : Collects before taken between)
    (h' : Collects between others after) : Collects before (taken ++ others) after where
  pending := by rw [h.pending, h'.pending, List.append_assoc]
  now_le := Nat.le_trans h.now_le h'.now_le
  arrived arrival hmem := by
    rcases List.mem_append.mp hmem with hmem | hmem
    · exact Nat.le_trans (h.arrived arrival hmem) h'.now_le
    · exact h'.arrived arrival hmem
  pauses := h'.pauses ∘ h.pauses

theorem collects_pause : Collects feed [] feed.pause where
  pending := rfl
  now_le := now_le_pause
  arrived := by simp
  pauses hprompt := by rw [pause_eq_self hprompt, hprompt]

/-! ### One reception -/

theorem collects_of_event {event : ChangeEvent}
    (h : feed.receiveWithin limit = (.event event, after)) :
    ∃ first, first.event = event ∧ Collects feed [first] after ∧ after.now ≤ feed.now + limit := by
  obtain ⟨first, hevent, hpending, harrived, hnow, hpauses⟩ := of_receiveWithin_eq_event h
  refine ⟨first, hevent, ⟨hpending, ?_, ?_, fun hprompt => by rw [hpauses, hprompt]⟩, ?_⟩
  · omega
  · simp only [List.mem_singleton, forall_eq]
    omega
  · omega

theorem collects_of_timeout (h : feed.receiveWithin limit = (.timeout, after)) :
    Collects feed [] after ∧ after.now = feed.now + limit ∧
      ∀ first ∈ after.pending.head?, after.now < first.time := by
  obtain ⟨rfl, hlate⟩ := of_receiveWithin_eq_timeout h
  exact ⟨⟨rfl, Nat.le_add_right _ _, by simp, id⟩, rfl, hlate⟩

theorem collects_of_closed (h : feed.receiveWithin limit = (.closed, after)) :
    Collects feed [] after ∧ after.now ≤ feed.now + limit ∧ after.pending = [] := by
  obtain ⟨hpending, rfl, hclosing⟩ := of_receiveWithin_eq_closed h
  exact ⟨⟨rfl, Nat.le_max_left _ _, by simp, id⟩, by simp only; omega, hpending⟩

/-! ### The two ways of collecting -/

/-- Collecting for a time takes events that arrive meanwhile, and lasts for that time if anything
is left. A receiver without pauses takes no longer. -/
theorem exists_collects_collectDuring (debounce start : Nat) (batch : List Path) (feed : Feed)
    (hstart : start ≤ feed.now) :
    ∃ taken, Collects feed taken (collectDuring debounce start batch feed).2 ∧
      (collectDuring debounce start batch feed).1 =
        (taken.map (·.event)).foldl addChanged batch ∧
      ((collectDuring debounce start batch feed).2.pending ≠ [] →
        start + debounce ≤ (collectDuring debounce start batch feed).2.now) ∧
      (feed.pauses = [] → feed.now ≤ start + debounce →
        (collectDuring debounce start batch feed).2.now ≤ start + debounce) := by
  -- A turn of the loop receives an event, runs out of time, finds the feed closed, or is not made.
  fun_induction collectDuring debounce start batch feed with
  | case1 batch feed looked hlooked waiting event rest hreceived ih =>
    obtain ⟨first, rfl, hfirst, hlimit⟩ := collects_of_event hreceived
    have hwaiting : Collects feed [] waiting := collects_pause.trans collects_pause
    obtain ⟨taken, htaken, hbatch, hlasts, hends⟩ :=
      ih (Nat.le_trans hstart (Nat.le_trans hwaiting.now_le hfirst.now_le))
    refine ⟨first :: taken, (hwaiting.trans hfirst).trans htaken, hbatch, hlasts, ?_⟩
    intro hprompt hend
    have hsame : waiting = feed := pause_pause_eq_self hprompt
    rw [hsame] at hlimit
    exact hends ((hwaiting.trans hfirst).pauses hprompt) (by omega)
  | case2 batch feed looked hlooked waiting rest hreceived =>
    obtain ⟨hrest, hlimit, -⟩ := collects_of_timeout hreceived
    have hwaiting : Collects feed [] waiting := collects_pause.trans collects_pause
    have hnow := hwaiting.now_le
    refine ⟨[], hwaiting.trans hrest, rfl, fun _ => ?_, fun hprompt hend => ?_⟩
    · simp only
      omega
    · have hsame : waiting = feed := pause_pause_eq_self hprompt
      rw [hsame] at hlimit
      simp only
      omega
  | case3 batch feed looked hlooked waiting rest hreceived =>
    obtain ⟨hrest, hlimit, hpending⟩ := collects_of_closed hreceived
    have hwaiting : Collects feed [] waiting := collects_pause.trans collects_pause
    refine ⟨[], hwaiting.trans hrest, rfl, fun hleft => absurd hpending hleft,
      fun hprompt hend => ?_⟩
    have hsame : waiting = feed := pause_pause_eq_self hprompt
    rw [hsame] at hlimit
    simp only
    omega
  | case4 batch feed looked hlooked =>
    have hnow : feed.now ≤ looked.now := now_le_pause
    refine ⟨[], collects_pause, rfl, fun _ => ?_, fun hprompt hend => ?_⟩
    · simp only
      omega
    · have hsame : looked = feed := pause_eq_self hprompt
      rwa [hsame]

/-- Collecting what is there takes all that has arrived by then. A receiver without pauses takes no
time for it. -/
theorem exists_collects_collectPresent (batch : List Path) (feed : Feed) :
    ∃ taken, Collects feed taken (collectPresent batch feed).2 ∧
      (collectPresent batch feed).1 = (taken.map (·.event)).foldl addChanged batch ∧
      (∀ first ∈ (collectPresent batch feed).2.pending.head?,
        (collectPresent batch feed).2.now < first.time) ∧
      (feed.pauses = [] → (collectPresent batch feed).2.now = feed.now) := by
  -- With no time to wait, running out of time means that the next event is still to arrive.
  fun_induction collectPresent batch feed with
  | case1 batch feed event rest hreceived ih =>
    obtain ⟨first, rfl, hfirst, hlimit⟩ := collects_of_event hreceived
    obtain ⟨taken, htaken, hbatch, hlate, hends⟩ := ih
    refine ⟨first :: taken, (collects_pause.trans hfirst).trans htaken, hbatch, hlate, ?_⟩
    intro hprompt
    have hnow := (collects_pause.trans hfirst).now_le
    rw [pause_eq_self hprompt] at hlimit
    rw [hends ((collects_pause.trans hfirst).pauses hprompt)]
    omega
  | case2 batch feed rest hreceived =>
    obtain ⟨hrest, hlimit, hlate⟩ := collects_of_timeout hreceived
    refine ⟨[], collects_pause.trans hrest, rfl, hlate, fun hprompt => ?_⟩
    rw [pause_eq_self hprompt] at hlimit
    exact hlimit
  | case3 batch feed rest hreceived =>
    obtain ⟨hrest, hlimit, hpending⟩ := collects_of_closed hreceived
    refine ⟨[], collects_pause.trans hrest, rfl, by simp [hpending], fun hprompt => ?_⟩
    have hnow := (collects_pause.trans hrest).now_le
    rw [pause_eq_self hprompt] at hlimit
    simp only
    omega

/-- What is collected after the first event of a window is all that arrives up to some time. That
time lies behind the collection time; without pauses it is its end. -/
theorem exists_stop_collect (debounce : Nat) (batch : List Path) (feed : Feed) :
    ∃ stop, feed.now + debounce ≤ stop ∧
      (collect debounce batch feed).1 =
        ((feed.pending.takeWhile (·.time ≤ stop)).map (·.event)).foldl addChanged batch ∧
      (collect debounce batch feed).2.pending = feed.pending.dropWhile (·.time ≤ stop) ∧
      ((collect debounce batch feed).2.pending ≠ [] → (collect debounce batch feed).2.now = stop) ∧
      (feed.pauses = [] → stop = feed.now + debounce ∧
        (collect debounce batch feed).2.pauses = []) := by
  obtain ⟨front, hfront, hbatch, hlasts, hends⟩ :=
    exists_collects_collectDuring debounce feed.pause.now batch feed.pause (Nat.le_refl _)
  obtain ⟨back, hback, hbatch', hlate, hnow⟩ :=
    exists_collects_collectPresent (collectDuring debounce feed.pause.now batch feed.pause).1
      (collectDuring debounce feed.pause.now batch feed.pause).2
  have hcollect : collect debounce batch feed =
      collectPresent (collectDuring debounce feed.pause.now batch feed.pause).1
        (collectDuring debounce feed.pause.now batch feed.pause).2 := rfl
  rw [← hcollect] at hback hbatch' hlate hnow
  have hpause : feed.now ≤ feed.pause.now := now_le_pause
  have hall := (collects_pause.trans hfront).trans hback
  -- The end of the window: what is left, if anything, arrives later than the clock shows.
  let stop := max (collect debounce batch feed).2.now (feed.pause.now + debounce)
  have hstop : (collect debounce batch feed).2.pending ≠ [] →
      (collect debounce batch feed).2.now = stop := by
    intro hleft
    have hmore : (collectDuring debounce feed.pause.now batch feed.pause).2.pending ≠ [] := by
      rw [hback.pending]
      exact List.append_ne_nil_of_right_ne_nil _ hleft
    have hclock := hback.now_le
    have hover := hlasts hmore
    omega
  have hearly : ∀ arrival ∈ [] ++ front ++ back, arrival.time ≤ stop :=
    fun arrival hmem => Nat.le_trans (hall.arrived arrival hmem) (Nat.le_max_left _ _)
  have hlater : ∀ first ∈ (collect debounce batch feed).2.pending.head?, stop < first.time := by
    intro first hfirst
    have hleft : (collect debounce batch feed).2.pending ≠ [] := by
      intro hnone
      rw [hnone] at hfirst
      cases hfirst
    rw [← hstop hleft]
    exact hlate first hfirst
  obtain ⟨htake, hdrop⟩ := cut_append hearly hlater
  rw [← hall.pending] at htake hdrop
  refine ⟨stop, by omega, ?_, hdrop.symm, hstop, fun hprompt => ⟨?_, hall.pauses hprompt⟩⟩
  · rw [htake, hbatch', hbatch]
    simp
  · have hsame : feed.pause.now = feed.now := by rw [pause_eq_self hprompt]
    have hclock := hnow ((collects_pause.trans hfront).pauses hprompt)
    have hover := hends (collects_pause.pauses hprompt) (Nat.le_add_right _ _)
    omega

/-! ### The batches -/

/-- The events that are collected with a first one make the next window of a cut. -/
theorem exists_cut_cons {event : ChangeEvent} {received : Feed}
    (hreceived : feed.pause.receive = some (event, received))
    (hcut : Cut debounce ((collect debounce (addChanged [] event) received).2.pauses = [])
      (collect debounce (addChanged [] event) received).2.now
      (collect debounce (addChanged [] event) received).2.pending windows) :
    ∃ window, Cut debounce (feed.pauses = []) feed.now feed.pending (window :: windows) ∧
      (collect debounce (addChanged [] event) received).1 = batchOf (window.map (·.event)) := by
  obtain ⟨first, rfl, hpending, hnow, hpauses⟩ := of_receive_eq_some hreceived
  obtain ⟨stop, hstop, hbatch, hrest, hclock, hprompt⟩ :=
    exists_stop_collect debounce (addChanged [] first.event) received
  have hpause : feed.now ≤ feed.pause.now := now_le_pause
  have hpromptly : feed.pauses = [] → received.pauses = [] ∧ feed.pause.now = feed.now := by
    intro hnone
    rw [hpauses, pause_eq_self hnone]
    exact ⟨hnone, rfl⟩
  -- The window is the event that was waited for and what `collect` took after it.
  refine ⟨first :: received.pending.takeWhile (·.time ≤ stop), ?_, ?_⟩
  · have hcut' : Cut debounce (feed.pauses = []) stop
        (received.pending.dropWhile (·.time ≤ stop)) windows := by
      rw [← hrest]
      exact (hcut.imp fun hnone => (hprompt (hpromptly hnone).1).2).of_now hclock
    rw [← pending_pause feed, hpending]
    refine .window stop (by omega) (fun hnone => ?_) hcut'
    have hend := (hprompt (hpromptly hnone).1).1
    have hsame := (hpromptly hnone).2
    omega
  · rw [hbatch, batchOf_eq_foldl]
    rfl

/-- The batches that the receiver hands on are those of the windows into which the arrivals are
cut. -/
theorem exists_cut_drainFrom (debounce : Nat) (batch : List Path) (feed : Feed)
    (hbatch : batch = []) :
    ∃ windows, Cut debounce (feed.pauses = []) feed.now feed.pending windows ∧
      drainFrom debounce batch feed = batches (windows.map fun window => window.map (·.event)) := by
  fun_induction drainFrom debounce batch feed with
  | case1 batch feed hreceived =>
    have hnone : feed.pause.pending = [] := receive_eq_none_iff.mp hreceived
    rw [← pending_pause feed, hnone]
    exact ⟨[], .nil _, rfl⟩
  | case2 batch feed event received hreceived collected hempty ih =>
    -- The paths of the window changed in no content: the batch is as empty as before.
    subst hbatch
    obtain ⟨windows, hcut, hbatches⟩ := ih (List.isEmpty_iff.mp hempty)
    obtain ⟨window, hcut', hwindow⟩ := exists_cut_cons hreceived hcut
    refine ⟨window :: windows, hcut', ?_⟩
    rw [hbatches, List.map_cons, batches_cons, ← hwindow, if_pos hempty]
  | case3 batch feed event received hreceived collected hempty ih =>
    subst hbatch
    obtain ⟨windows, hcut, hbatches⟩ := ih rfl
    obtain ⟨window, hcut', hwindow⟩ := exists_cut_cons hreceived hcut
    refine ⟨window :: windows, hcut', ?_⟩
    rw [hbatches, List.map_cons, batches_cons, ← hwindow, if_neg hempty]

/-! ### Windows that arrive far from each other -/

theorem time_le_of_mem_spaced {events : List (List ChangeEvent)} {time : Nat} {arrival : Arrival}
    (h : arrival ∈ spaced debounce time events) : time ≤ arrival.time := by
  induction events generalizing time with
  | nil => cases h
  | cons window rest ih =>
    rcases List.mem_append.mp h with hmem | hmem
    · obtain ⟨event, -, rfl⟩ := List.mem_map.mp hmem
      exact Nat.le_refl _
    · have hlater := ih hmem
      omega

theorem map_event_spaced (debounce time : Nat) (events : List (List ChangeEvent)) :
    (spaced debounce time events).map (·.event) = events.flatten := by
  induction events generalizing time with
  | nil => rfl
  | cons window rest ih =>
    rw [spaced, List.map_append, ih, List.map_map, List.flatten_cons]
    simp [Function.comp_def]

/-- A prompt receiver cuts such a feed into the windows as they were sent. -/
theorem map_event_of_cut_spaced {events : List (List ChangeEvent)} {time : Nat}
    (hnow : now ≤ time) (hcut : Cut debounce True now (spaced debounce time events) windows) :
    (windows.map fun window => window.map (·.event)) = events.filter (!·.isEmpty) := by
  induction events generalizing now time windows with
  | nil =>
    cases hcut
    rfl
  | cons window rest ih =>
    cases window with
    | nil => exact ih (by omega : now ≤ time + debounce + 1) hcut
    | cons event others =>
      rw [spaced, List.map_cons, List.cons_append] at hcut
      cases hcut with
      | window stop hstop hprompt hrest =>
        have hend : stop = time + debounce := by
          have hlength : stop = max now time + debounce := hprompt trivial
          omega
        -- The window has arrived as a whole by then, and the next one comes later.
        have hearly : ∀ arrival ∈ others.map (Arrival.mk time ·), arrival.time ≤ stop := by
          intro arrival hmem
          obtain ⟨event, -, rfl⟩ := List.mem_map.mp hmem
          simp only
          omega
        have hlate : ∀ first ∈ (spaced debounce (time + debounce + 1) rest).head?,
            stop < first.time := by
          intro first hfirst
          have htime := time_le_of_mem_spaced (List.mem_of_mem_head? hfirst)
          omega
        obtain ⟨htake, hdrop⟩ := cut_append hearly hlate
        rw [hdrop] at hrest
        rw [htake, List.map_cons, ih (by omega) hrest]
        simp [Function.comp_def]

/-- Windows that arrive far from each other are handed on as they are. -/
theorem drain_ofWindows (debounce : Nat) (events : List (List ChangeEvent)) :
    (ofWindows debounce events).drain debounce = batches events := by
  obtain ⟨windows, hcut, hbatches⟩ :=
    exists_cut_drainFrom debounce [] (ofWindows debounce events) rfl
  have hprompt : Cut debounce True 0 (spaced debounce 0 events) windows := hcut.imp fun _ => rfl
  rw [drain, hbatches, map_event_of_cut_spaced (Nat.le_refl _) hprompt]
  exact batches_filter events

/-- However the events of a feed arrive and whatever time the receiver loses, their arrivals are
cut into windows, and the batches are one for each window in which the content of some path
changed: each path of the window is there once, in the order of paths. And there is no way to cut
events into windows that does not occur. -/
theorem delivers_drain (debounce : Nat) :
    (∀ feed : Feed, ∃ windows,
      Cut debounce (feed.pauses = []) feed.now feed.pending windows ∧
        windows.flatten = feed.pending ∧
        Delivers (windows.map fun window => window.map (·.event)) (feed.drain debounce)) ∧
    ∀ windows : List (List ChangeEvent),
      (ofWindows debounce windows).pending.map (·.event) = windows.flatten ∧
        Delivers windows ((ofWindows debounce windows).drain debounce) := by
  constructor
  · intro feed
    obtain ⟨windows, hcut, hbatches⟩ := exists_cut_drainFrom debounce [] feed rfl
    refine ⟨windows, hcut, hcut.flatten_eq, ?_⟩
    rw [drain, hbatches]
    exact delivers_batches _
  · intro windows
    rw [drain_ofWindows]
    exact ⟨map_event_spaced debounce 0 windows, delivers_batches windows⟩

end Feed

end Waymark
