import Weblog.Event
import Weblog.Store.Call

/-!
# Scripts

An operation of the service is a script: it reads the clock, takes identifiers, reports events and
asks the store, one step at a time, and each step depends on the answers to the steps before it.
What the steps mean is left to whoever runs the script, so that a run can be cut off, delayed or
disturbed at any of them. A task is a script that ends with a result or an error, and a task fails
at its first error.
-/

namespace Weblog

/-- An operation, step by step. -/
inductive Script (α : Type) where
  | done (a : α)
  | readClock (next : Instant → Script α)
  | takeId (next : Uuid → Script α)
  | report (e : Event) (rest : Script α)
  | ask (a : Access) (next : Except Error a.Answer → Script α)

namespace Script

variable {α β : Type}

/-- Goes on with a script that depends on the result of the one before. -/
def bind : Script α → (α → Script β) → Script β
  | .done a, f => f a
  | .readClock next, f => .readClock fun now => (next now).bind f
  | .takeId next, f => .takeId fun id => (next id).bind f
  | .report e rest, f => .report e (rest.bind f)
  | .ask a next, f => .ask a fun answer => (next answer).bind f

instance : Monad Script where
  pure := .done
  bind := bind

@[simp] theorem bind_done (s : Script α) : s.bind .done = s := by
  induction s with
  | done a => rfl
  | readClock next ih => simp [bind, ih]
  | takeId next ih => simp [bind, ih]
  | report e rest ih => simp [bind, ih]
  | ask a next ih => simp [bind, ih]

theorem bind_assoc {γ : Type} (s : Script α) (f : α → Script β) (g : β → Script γ) :
    (s.bind f).bind g = s.bind fun a => (f a).bind g := by
  induction s with
  | done a => rfl
  | readClock next ih => simp [bind, ih]
  | takeId next ih => simp [bind, ih]
  | report e rest ih => simp [bind, ih]
  | ask a next ih => simp [bind, ih]

instance : LawfulMonad Script :=
  LawfulMonad.mk' Script bind_done (fun _ _ => rfl) bind_assoc

end Script

/-- A script that ends with a result or an error. -/
abbrev Task (α : Type) := ExceptT Error Script α

namespace Task

variable {α : Type}

def readClock : Task Instant :=
  ExceptT.mk (.readClock fun now => .done (.ok now))

def takeId : Task Uuid :=
  ExceptT.mk (.takeId fun id => .done (.ok id))

def report (e : Event) : Task Unit :=
  ExceptT.mk (.report e (.done (.ok ())))

def ask (a : Access) : Task a.Answer :=
  ExceptT.mk (.ask a .done)

/-- Makes a call in the open transaction. -/
def call (c : Call) : Task c.Answer :=
  ask (.call c)

def query (q : Query) : Task q.Answer :=
  ask (.query q)

/-- Takes a result or an error as it is. -/
def ofExcept (result : Except Error α) : Task α :=
  ExceptT.mk (.done result)

/-- The value, or an error in its absence. -/
def require (error : Error) : Option α → Task α
  | some a => pure a
  | none => throw error

/-- Ends the open transaction as a result asks for: a commit after success, a rollback after an
error. That a commit fails is an error itself; that a rollback fails is only reported, and the
error before it stands. -/
def finish : Except Error α → Task α
  | .ok a => do
    ask .commit
    return a
  | .error e => ExceptT.mk (.ask .rollback fun
    | .ok () => .done (.error e)
    | .error failure => .report (.rollbackFailed failure e) (.done (.error e)))

/-- Does a task in a transaction of its own. -/
def transact (body : Task α) : Task α := do
  ask .begin
  let result ← ExceptT.lift body.run
  finish result

end Task

end Weblog
