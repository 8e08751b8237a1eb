import Weblog.Service.Operation

/-!
# Requests at the same time

Requests that are served at the same time take turns. At each turn one of them goes on by one step,
whatever the others have done since its last one: it reads the clock, takes an identifier or asks
the store. Who asks for a store that someone else holds has to wait. A request can be given up at
any time, and the transaction that it has open is then dropped with it.
-/

namespace Weblog

/-- A script without the events that it begins with. Nothing can happen between reporting them and
the step before. -/
def Script.reported {α : Type} : Script α → Script α
  | .report _ rest => rest.reported
  | .done a => .done a
  | .readClock next => .readClock next
  | .takeId next => .takeId next
  | .ask a next => .ask a next

/-- A request that is being served: what is left of it to do, if it was not given up, and the
readings of the clock and the identifiers that it took, oldest first. -/
structure Request where
  op : Operation
  rest : Option (Script (Except Error Reply))
  times : List Instant
  ids : List Uuid

/-- A request that was answered. -/
structure Answered where
  op : Operation
  answer : Except Error Reply
  times : List Instant
  ids : List Uuid

namespace Request

/-- A request that has done nothing yet. -/
def new (sanitizer : Sanitizer) (op : Operation) : Request :=
  { op, rest := some (op.task sanitizer).run.reported, times := [], ids := [] }

def answered? (r : Request) : Option Answered :=
  match r.rest with
  | some (.done answer) => some { op := r.op, answer, times := r.times, ids := r.ids }
  | _ => none

/-- Whether nothing is left to do. -/
def isOver (r : Request) : Bool :=
  match r.rest with
  | some (.done _) | none => true
  | some _ => false

end Request

/-- The requests, each known by its place, the store that they share, how many readings and
identifiers they used up, and who obtained the store for a transaction, in the order in which they
did. -/
structure Traffic where
  store : Store
  clockReads : Nat
  idsUsed : Nat
  requests : List Request
  order : List Nat

/-- What can happen next. -/
inductive Move where
  /-- A request goes on by one step, if it can. -/
  | advance (i : Nat)
  /-- A request is given up. -/
  | cancel (i : Nat)

namespace Traffic

/-- All requests before they do anything, and an empty store. -/
def start (sanitizer : Sanitizer) (ops : List Operation) : Traffic :=
  { store := .empty, clockReads := 0, idsUsed := 0, requests := ops.map (.new sanitizer)
    order := [] }

/-- Who holds the store: as long as it is locked, the one who obtained it last. -/
def holder? (σ : Traffic) : Option Nat :=
  if σ.store.isLocked then σ.order.getLast? else none

variable (clock : Nat → Instant) (source : Nat → Uuid)

/-- A request does the next step of what is left of it. -/
def step (σ : Traffic) (i : Nat) (r : Request) : Script (Except Error Reply) → Traffic
  | .readClock next =>
    let now := clock σ.clockReads
    { σ with
      clockReads := σ.clockReads + 1
      requests := σ.requests.set i
        { r with rest := some (next now).reported, times := r.times ++ [now] } }
  | .takeId next =>
    let id := source σ.idsUsed
    { σ with
      idsUsed := σ.idsUsed + 1
      requests := σ.requests.set i { r with rest := some (next id).reported, ids := r.ids ++ [id] } }
  | .ask a next =>
    match σ.store.perform a with
    | .error _ => σ
    | .ok (answer, store) =>
      { σ with
        store
        requests := σ.requests.set i { r with rest := some (next answer).reported }
        order := if a = .begin then σ.order ++ [i] else σ.order }
  | .report _ rest =>
    { σ with requests := σ.requests.set i { r with rest := some rest.reported } }
  | .done _ => σ

/-- A request is given up; the transaction that it has open is dropped. -/
def cancel (σ : Traffic) (i : Nat) (r : Request) : Traffic :=
  { σ with
    store := if σ.holder? = some i then σ.store.abandon else σ.store
    requests := σ.requests.set i { r with rest := none } }

def move (σ : Traffic) : Move → Traffic
  | .advance i =>
    match σ.requests[i]? with
    | some r =>
      match r.rest with
      | some script => σ.step clock source i r script
      | none => σ
    | none => σ
  | .cancel i =>
    match σ.requests[i]? with
    | some r => if r.isOver then σ else σ.cancel i r
    | none => σ

def follow (σ : Traffic) (moves : List Move) : Traffic :=
  moves.foldl (move clock source) σ

/-- The requests that obtained the store and were answered, in the order in which they obtained
it. -/
def completed (σ : Traffic) : List Answered :=
  σ.order.filterMap fun i => σ.requests[i]?.bind Request.answered?

end Traffic

end Weblog
