import Waymark.Vault.Keeper

/-!
# Sessions

A keeper at work over time: notes are processed, others read and write the same store,
paths are held and released, and time passes. The state of a session is the store, the
holds and the clock.

## Main definitions

* `Session` — the state
* `Step`, `Answer` — what can happen, and what comes of it
* `Session.step`, `Session.run` — one step, and a run of steps
-/

namespace Waymark

/-- The state of a keeper at work on a store of type `σ`. -/
structure Session (σ : Type) where
  /-- The store. -/
  store : σ
  /-- The paths that are held. -/
  holds : Holds := {}
  /-- The clock, in milliseconds. -/
  now : Nat := 0

/-- What can happen in a session. -/
inductive Step (σ : Type) where
  /-- The note at the path is processed. -/
  | process (path : Path)
  /-- Someone reads the note at the path. -/
  | read (path : Path)
  /-- Someone gives the note at the path a text. -/
  | write (path : Path) (text : String)
  /-- The store is changed in some other way. -/
  | change (change : σ → σ)
  /-- The path is held. -/
  | hold (path : Path)
  /-- The path is released. -/
  | release (path : Path)
  /-- Someone asks whether the path is held. -/
  | isHeld (path : Path)
  /-- Time passes. -/
  | wait (milliseconds : Nat)

/-- What comes of a step. -/
inductive Answer where
  | done
  | text (text : String)
  | held (held : Bool)
  | outcome (outcome : Outcome)
  /-- A note that was processed could not be read or written. -/
  | noteError (error : NoteError)
  /-- A note that was read or written directly could not be. -/
  | fileError (cause : FileError)
  deriving DecidableEq, Repr

namespace Session

variable {σ : Type}

/-- One step of a session. -/
def step (keeper : Keeper) (store : Store (StateM σ)) (session : Session σ) :
    Step σ → Answer × Session σ
  | .process path =>
    let (visit, stored) :=
      (keeper.process store session.holds session.now path).run session.store
    (match visit.result with
      | .ok outcome => .outcome outcome
      | .error error => .noteError error,
      { session with store := stored, holds := visit.holds })
  | .read path =>
    let (result, stored) := (store.read path).run session.store
    (match result with
      | .ok text => .text text
      | .error cause => .fileError cause,
      { session with store := stored })
  | .write path text =>
    let (result, stored) := (store.write path text).run session.store
    (match result with
      | .ok () => .done
      | .error cause => .fileError cause,
      { session with store := stored })
  | .change change => (.done, { session with store := change session.store })
  | .hold path => (.done, { session with holds := session.holds.hold path session.now })
  | .release path => (.done, { session with holds := session.holds.release path })
  | .isHeld path =>
    let (held, holds) := session.holds.isHeld path session.now
    (.held held, { session with holds })
  | .wait milliseconds => (.done, { session with now := session.now + milliseconds })

/-- The answers to some steps, and the session after them. -/
def run (keeper : Keeper) (store : Store (StateM σ)) (session : Session σ) :
    List (Step σ) → List Answer × Session σ
  | [] => ([], session)
  | first :: rest =>
    let (answer, session) := session.step keeper store first
    let (answers, session) := session.run keeper store rest
    (answer :: answers, session)

end Session

end Waymark
