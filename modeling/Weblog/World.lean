import Weblog.Script
import Weblog.Store.Basic

/-!
# Running scripts

A script runs against a store, with a clock and a source of identifiers that answer each reading
in turn. Any access to the store can be made to fail, to panic or to hang. A transaction that is
still open when its script is over, or that could not be ended, is abandoned.
-/

namespace Weblog

/-- What happens instead of an access to the store. -/
inductive Fault where
  /-- The access fails with an error, after events about it were reported. -/
  | fails (e : Error) (events : List Event)
  /-- The script stops there and then. -/
  | panics
  /-- The access never ends, and the caller gives the script up. -/
  | hangs

/-- What surrounds the runs: the readings of the clock, the identifiers, and the faults of the
store by method and by how often that method was used before. -/
structure Surroundings where
  clock : Nat → Instant
  ids : Nat → Uuid
  faults : Method → Nat → Option Fault

/-- What runs change: the store, how many readings and identifiers are used up, and what was asked
of the store and what was reported, newest first. -/
structure World where
  store : Store
  clockReads : Nat
  idsUsed : Nat
  trace : List Access
  events : List Event

/-- How a run ends. -/
inductive Outcome (α : Type) where
  | answered (a : α)
  /-- An access to the store panicked. -/
  | panicked (m : Method)
  /-- The script waits for something that never comes. -/
  | pending

namespace World

def initial : World :=
  { store := .empty, clockReads := 0, idsUsed := 0, trace := [], events := [] }

def uses (w : World) (m : Method) : Nat :=
  w.trace.countP (·.method = m)

/-- Drops the transaction that is open. -/
def abandon (w : World) : World :=
  { w with store := w.store.abandon }

/-- An access fails. A transaction that fails to end is gone all the same. -/
def fail (w : World) (a : Access) (events : List Event) : World :=
  let w := { w with events := events.reverse ++ w.events }
  match a with
  | .commit | .rollback => w.abandon
  | _ => w

end World

/-- Runs a script as far as it goes. -/
def Script.run {α : Type} (s : Surroundings) : Script α → World → Outcome α × World
  | .done a, w => (.answered a, w)
  | .readClock next, w =>
    run s (next (s.clock w.clockReads)) { w with clockReads := w.clockReads + 1 }
  | .takeId next, w => run s (next (s.ids w.idsUsed)) { w with idsUsed := w.idsUsed + 1 }
  | .report e rest, w => run s rest { w with events := e :: w.events }
  | .ask a next, w =>
    let fault := s.faults a.method (w.uses a.method)
    let w := { w with trace := a :: w.trace }
    match fault with
    | some (.fails e events) => run s (next (.error e)) (w.fail a events)
    | some .panics => (.panicked a.method, w)
    | some .hangs => (.pending, w)
    | none => match w.store.perform a with
      | .ok (answer, store) => run s (next answer) { w with store }
      | .error _ => (.pending, w)

/-- Runs a script and drops the transaction that it leaves open. -/
def Script.perform {α : Type} (s : Surroundings) (script : Script α) (w : World) :
    Outcome α × World :=
  let (outcome, w) := script.run s w
  (outcome, w.abandon)

end Weblog
