import Waymark.Vault.Change

/-!
# The feed of changes

Change events arrive one by one while a receiver turns them into batches. The receiver waits for
an event, collects what arrives in the collection time after it, and then what has arrived by the
time it is done. If the content of some path has changed, the paths are handed on as a batch. It
starts over until the feed is closed and nothing is left in it.

The receiver is not alone in the world: time passes between its doings, be it that a batch is
handled or that something else runs. How much passes each time is part of the feed, so whatever is
shown of every feed holds for every course that things can take.

Times are in milliseconds.

## Main definitions

* `Arrival`, `Feed` — events with their times, and the feed as the receiver finds it
* `Feed.receive`, `Feed.receiveWithin` — waiting for an event, without and with a limit
* `Feed.collectDuring`, `Feed.collectPresent` — collecting during a time, and what is there
* `Feed.drain` — the batches that are handed on
* `Feed.ofWindows` — a feed in which given windows of events arrive far from each other
-/

namespace Waymark

/-- An event, with the time at which it arrives. -/
structure Arrival where
  /-- When the event can be received, unless one before it in the feed arrives later. -/
  time : Nat
  /-- The event. -/
  event : ChangeEvent
  deriving DecidableEq, Repr

/-- A feed of events at its receiving end. -/
structure Feed where
  /-- The events that have not been received, in their order. -/
  pending : List Arrival
  /-- When the sending end is given up, if no event arrives later. -/
  closing : Nat := 0
  /-- The clock of the receiver. -/
  now : Nat := 0
  /-- How much time passes before each of the next doings of the receiver. None does when the list
  is over. -/
  pauses : List Nat := []
  deriving DecidableEq, Repr

/-- What comes of receiving within a limit of time. -/
inductive Reception where
  /-- An event was received. -/
  | event (event : ChangeEvent)
  /-- Nothing arrived in the time. -/
  | timeout
  /-- The feed is closed, and nothing is left in it. -/
  | closed
  deriving DecidableEq, Repr

/-- The batch with the paths of an event added whose content has changed. -/
def addChanged (batch : List Path) (event : ChangeEvent) : List Path :=
  event.contentPaths.foldl (fun batch path => insertPath path batch) batch

namespace Feed

/-- The feed after some time has passed. -/
def pause (feed : Feed) : Feed :=
  { feed with now := feed.now + feed.pauses.headD 0, pauses := feed.pauses.tail }

/-- Waits for an event, however long that takes. There is none once the feed is closed. -/
def receive (feed : Feed) : Option (ChangeEvent × Feed) :=
  match feed.pending with
  | [] => none
  | first :: rest =>
    some (first.event, { feed with pending := rest, now := max feed.now first.time })

/-- Waits for an event for the time `limit`. If it is zero, an event must have arrived. -/
def receiveWithin (feed : Feed) (limit : Nat) : Reception × Feed :=
  match feed.pending with
  | first :: rest =>
    if first.time ≤ feed.now + limit then
      (.event first.event, { feed with pending := rest, now := max feed.now first.time })
    else (.timeout, { feed with now := feed.now + limit })
  | [] =>
    if feed.closing ≤ feed.now + limit then
      (.closed, { feed with now := max feed.now feed.closing })
    else (.timeout, { feed with now := feed.now + limit })

@[simp] theorem pending_pause (feed : Feed) : feed.pause.pending = feed.pending := rfl

/-- What is received is the first of the pending events. -/
theorem of_receiveWithin_eq_event {feed rest : Feed} {limit : Nat} {event : ChangeEvent}
    (h : feed.receiveWithin limit = (.event event, rest)) :
    ∃ first, first.event = event ∧ feed.pending = first :: rest.pending ∧
      first.time ≤ feed.now + limit ∧ rest.now = max feed.now first.time ∧
      rest.pauses = feed.pauses := by
  unfold receiveWithin at h
  split at h
  next first others hpending =>
    split at h
    next harrived =>
      obtain ⟨hevent, rfl⟩ := Prod.mk.inj h
      exact ⟨first, Reception.event.inj hevent, hpending, harrived, rfl, rfl⟩
    · cases h
  · split at h <;> cases h

theorem length_pending_receiveWithin_lt {feed rest : Feed} {limit : Nat} {event : ChangeEvent}
    (h : feed.receiveWithin limit = (.event event, rest)) :
    rest.pending.length < feed.pending.length := by
  obtain ⟨first, -, hpending, -⟩ := of_receiveWithin_eq_event h
  simp [hpending]

theorem of_receiveWithin_eq_timeout {feed rest : Feed} {limit : Nat}
    (h : feed.receiveWithin limit = (.timeout, rest)) :
    rest = { feed with now := feed.now + limit } ∧
      ∀ first ∈ feed.pending.head?, feed.now + limit < first.time := by
  unfold receiveWithin at h
  split at h
  next first others hpending =>
    split at h
    · cases h
    next harrived =>
      refine ⟨(Prod.mk.inj h).2.symm, fun a ha => ?_⟩
      rw [hpending] at ha
      obtain rfl := Option.some.inj ha
      exact Nat.not_le.mp harrived
  next hpending =>
    split at h
    · cases h
    · exact ⟨(Prod.mk.inj h).2.symm, by simp [hpending]⟩

theorem of_receiveWithin_eq_closed {feed rest : Feed} {limit : Nat}
    (h : feed.receiveWithin limit = (.closed, rest)) :
    feed.pending = [] ∧ rest = { feed with now := max feed.now feed.closing } ∧
      feed.closing ≤ feed.now + limit := by
  unfold receiveWithin at h
  split at h
  · split at h <;> cases h
  next hpending =>
    split at h
    next hclosing => exact ⟨hpending, (Prod.mk.inj h).2.symm, hclosing⟩
    · cases h

/-- Collects events until the time `debounce` has passed since `start`, no further event arrives
in that time, or the feed is closed. -/
def collectDuring (debounce start : Nat) (batch : List Path) (feed : Feed) : List Path × Feed :=
  let looked := feed.pause
  if looked.now - start < debounce then
    let waiting := looked.pause
    match _h : waiting.receiveWithin (debounce - (waiting.now - start)) with
    | (.event event, rest) => collectDuring debounce start (addChanged batch event) rest
    | (.timeout, rest) => (batch, rest)
    | (.closed, rest) => (batch, rest)
  else (batch, looked)
termination_by feed.pending.length
decreasing_by exact (length_pending_receiveWithin_lt _h :)

/-- Collects the events that have arrived. -/
def collectPresent (batch : List Path) (feed : Feed) : List Path × Feed :=
  match _h : feed.pause.receiveWithin 0 with
  | (.event event, rest) => collectPresent (addChanged batch event) rest
  | (.timeout, rest) => (batch, rest)
  | (.closed, rest) => (batch, rest)
termination_by feed.pending.length
decreasing_by exact (length_pending_receiveWithin_lt _h :)

/-- Collecting leaves at most as much to be received as there was. -/
theorem length_pending_collectDuring_le (debounce start : Nat) (batch : List Path) (feed : Feed) :
    (collectDuring debounce start batch feed).2.pending.length ≤ feed.pending.length := by
  fun_induction collectDuring debounce start batch feed with
  | case1 batch feed looked hlooked waiting event rest hreceived ih =>
    exact Nat.le_trans ih (Nat.le_of_lt (length_pending_receiveWithin_lt hreceived :))
  | case2 batch feed looked hlooked waiting rest hreceived =>
    rw [(of_receiveWithin_eq_timeout hreceived).1]
    exact Nat.le_refl _
  | case3 batch feed looked hlooked waiting rest hreceived =>
    rw [(of_receiveWithin_eq_closed hreceived).2.1]
    exact Nat.le_refl _
  | case4 batch feed looked hlooked => exact Nat.le_refl _

theorem length_pending_collectPresent_le (batch : List Path) (feed : Feed) :
    (collectPresent batch feed).2.pending.length ≤ feed.pending.length := by
  fun_induction collectPresent batch feed with
  | case1 batch feed event rest hreceived ih =>
    exact Nat.le_trans ih (Nat.le_of_lt (length_pending_receiveWithin_lt hreceived :))
  | case2 batch feed rest hreceived =>
    rw [(of_receiveWithin_eq_timeout hreceived).1]
    exact Nat.le_refl _
  | case3 batch feed rest hreceived =>
    rw [(of_receiveWithin_eq_closed hreceived).2.1]
    exact Nat.le_refl _

/-- Collects the events of a window whose first event was just received. -/
def collect (debounce : Nat) (batch : List Path) (feed : Feed) : List Path × Feed :=
  let started := feed.pause
  let (batch, rest) := collectDuring debounce started.now batch started
  collectPresent batch rest

theorem length_pending_collect_le (debounce : Nat) (batch : List Path) (feed : Feed) :
    (collect debounce batch feed).2.pending.length ≤ feed.pending.length :=
  Nat.le_trans (length_pending_collectPresent_le _ _) (length_pending_collectDuring_le _ _ _ _)

theorem of_receive_eq_some {feed rest : Feed} {event : ChangeEvent}
    (h : feed.receive = some (event, rest)) :
    ∃ first, first.event = event ∧ feed.pending = first :: rest.pending ∧
      rest.now = max feed.now first.time ∧ rest.pauses = feed.pauses := by
  unfold receive at h
  split at h
  · cases h
  next first others hpending =>
    obtain ⟨hevent, rfl⟩ := Prod.mk.inj (Option.some.inj h)
    exact ⟨first, hevent, hpending, rfl, rfl⟩

theorem receive_eq_none_iff {feed : Feed} : feed.receive = none ↔ feed.pending = [] := by
  unfold receive
  split <;> simp [*]

/-- The batches that the receiver hands on, when `batch` has been collected already. -/
def drainFrom (debounce : Nat) (batch : List Path) (feed : Feed) : List (List Path) :=
  match _h : feed.pause.receive with
  | none => []
  | some (event, received) =>
    let collected := collect debounce (addChanged batch event) received
    if collected.1.isEmpty then drainFrom debounce collected.1 collected.2
    else collected.1 :: drainFrom debounce [] collected.2
termination_by feed.pending.length
decreasing_by
  all_goals
    obtain ⟨first, -, hpending, -⟩ := of_receive_eq_some _h
    have hlt : received.pending.length < feed.pending.length := by
      rw [← pending_pause feed, hpending]
      exact Nat.lt_succ_self _
    exact Nat.lt_of_le_of_lt (length_pending_collect_le _ _ _) hlt

/-- The batches that the receiver hands on. -/
def drain (debounce : Nat) (feed : Feed) : List (List Path) :=
  drainFrom debounce [] feed

/-! ### Feeds that arrive window by window -/

/-- The events of a window arrive all at the given time, and those of the windows after it later
than any collecting lasts. -/
def spaced (debounce time : Nat) : List (List ChangeEvent) → List Arrival
  | [] => []
  | window :: rest => window.map (⟨time, ·⟩) ++ spaced debounce (time + debounce + 1) rest

/-- A feed in which the windows arrive far from each other, for a receiver that loses no time. -/
def ofWindows (debounce : Nat) (windows : List (List ChangeEvent)) : Feed where
  pending := spaced debounce 0 windows

end Feed

end Waymark
