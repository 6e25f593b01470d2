import Waymark.Vault.Path

/-!
# Held paths

Paths that are held back for some time, since a change of theirs is one's own writing.
A hold ends at its deadline or when it is released. Expired holds are dropped when a
hold is asked for. The clock is a number of milliseconds that the caller passes.

Several parties may hold and release paths together. Each of them has a holder, which tells
where the deadlines are kept. A copy of a holder refers to the same deadlines, so what is done
through one copy is seen through all others.

## Main definitions

* `Holds` — the paths held, with their deadlines
* `Holds.hold`, `Holds.release`, `Holds.isHeld` — taking, ending and asking for a hold
* `HoldTables` — the deadlines that holders refer to
* `Holder`, `Holder.create`, `Holder.copy` — access to deadlines, and sharing it
* `Holder.hold`, `Holder.release`, `Holder.isHeld` — what is done through a holder
* `HoldCall`, `HoldCall.run`, `runHoldCalls` — calls on holders, one by one and in a sequence
-/

namespace Waymark

/-! ### Holds -/

/-- The paths that are held, each with its deadline. -/
structure Holds where
  /-- How long a path is held, in milliseconds. -/
  duration : Nat := 500
  /-- The deadlines, by the components of the paths; at most one for each path. -/
  deadlines : List (List Component × Nat) := []
  deriving DecidableEq, Repr

namespace Holds

/-- The holds without that of a path. -/
def release (holds : Holds) (path : Path) : Holds :=
  { holds with
    deadlines := holds.deadlines.filter fun entry => entry.1 != path.components }

/-- The holds with a path held from `now` on. An earlier hold of the path is replaced. -/
def hold (holds : Holds) (path : Path) (now : Nat) : Holds :=
  { holds with
    deadlines := (path.components, now + holds.duration) :: (holds.release path).deadlines }

/-- The holds that have not expired. -/
def purge (holds : Holds) (now : Nat) : Holds :=
  { holds with deadlines := holds.deadlines.filter fun entry => now < entry.2 }

/-- Whether a path is held, and the holds less the expired ones. -/
def isHeld (holds : Holds) (path : Path) (now : Nat) : Bool × Holds :=
  let live := holds.purge now
  (live.deadlines.any fun entry => entry.1 == path.components, live)

end Holds

/-! ### Holders -/

/-- The deadlines that holders refer to. Each table is that of a holder and its copies. -/
abbrev HoldTables := List (List (List Component × Nat))

/-- Access to the deadlines in one of the tables. -/
structure Holder where
  /-- Which table it is. -/
  table : Nat
  /-- How long a path is held, in milliseconds. -/
  duration : Nat := 500
  deriving DecidableEq, Repr

namespace Holder

/-- A holder with a table of its own, in which no path is held. -/
def create (tables : HoldTables) (duration : Nat) : Holder × HoldTables :=
  (⟨tables.length, duration⟩, tables ++ [[]])

/-- A holder for someone else, of the same table. -/
def copy (holder : Holder) : Holder :=
  ⟨holder.table, holder.duration⟩

/-- The holds that the holder refers to. -/
def holds (holder : Holder) (tables : HoldTables) : Holds :=
  ⟨holder.duration, tables[holder.table]?.getD []⟩

/-- The tables with the holder's one after a call. -/
def update (holder : Holder) (tables : HoldTables) (holds : Holds) : HoldTables :=
  tables.set holder.table holds.deadlines

/-- The tables with a path held from `now` on. -/
def hold (holder : Holder) (tables : HoldTables) (path : Path) (now : Nat) : HoldTables :=
  holder.update tables ((holder.holds tables).hold path now)

/-- The tables with a path released. -/
def release (holder : Holder) (tables : HoldTables) (path : Path) : HoldTables :=
  holder.update tables ((holder.holds tables).release path)

/-- Whether a path is held, and the tables less the holder's expired holds. -/
def isHeld (holder : Holder) (tables : HoldTables) (path : Path) (now : Nat) :
    Bool × HoldTables :=
  let (held, live) := (holder.holds tables).isHeld path now
  (held, holder.update tables live)

end Holder

/-! ### Sequences of calls -/

/-- What a holder is called for. -/
inductive HoldRequest where
  | hold (path : Path)
  | release (path : Path)
  | isHeld (path : Path)
  deriving DecidableEq, Repr

/-- A call on a holder. -/
structure HoldCall where
  /-- The holder, or one of its copies. -/
  holder : Holder
  /-- What it is called for. -/
  request : HoldRequest
  /-- What the clock shows, in milliseconds. -/
  now : Nat
  deriving DecidableEq, Repr

/-- The answer to a call, if it asks whether a path is held, and the tables afterwards. -/
def HoldCall.run (call : HoldCall) (tables : HoldTables) : Option Bool × HoldTables :=
  match call.request with
  | .hold path => (none, call.holder.hold tables path call.now)
  | .release path => (none, call.holder.release tables path)
  | .isHeld path =>
    let (held, tables) := call.holder.isHeld tables path call.now
    (some held, tables)

/-- The answers to some calls, and the tables after them. -/
def runHoldCalls (tables : HoldTables) : List HoldCall → List (Option Bool) × HoldTables
  | [] => ([], tables)
  | first :: rest =>
    let (answer, tables) := first.run tables
    let (answers, tables) := runHoldCalls tables rest
    (answer :: answers, tables)

end Waymark
