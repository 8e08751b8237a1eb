import Weblog.Proofs.Store.Call
import Weblog.Proofs.Task

/-!
# The undo record and snapshots

`Snapshot` is the plain way to have transactions: the tables are copied when one begins, calls work
on the copy, a commit puts the copy in the place of the tables and any other end throws it away. The
store writes straight into its tables and keeps an undo record instead.

* `snapshot_act` (no assumption): whatever is done with a store, in whatever state, the plain store
  gives the same answer, and afterwards the two still stand for the same tables and the same copy.
* `store_refines_snapshot`: hence whole sessions agree in every answer and after every step in the
  committed tables; a transaction that does not commit leaves the store as it was, whatever was
  called in it; and what can be read at all is committed.
-/

namespace Weblog

/-- A store that copies its tables when a transaction begins. -/
structure Snapshot where
  committed : Tables
  copy : Option Tables

namespace Snapshot

def look {α : Type} (s : Snapshot) (f : Tables → α) : Except Store.Refusal α :=
  match s.copy with
  | some _ => .error .locked
  | none => .ok (f s.committed)

/-- Asks something of the store: it answers, and says what it is from now on. -/
def perform (s : Snapshot) : (a : Access) → Except Store.Refusal (Except Error a.Answer × Snapshot)
  | .begin =>
    match s.copy with
    | some _ => .error .locked
    | none => .ok (.ok (), ⟨s.committed, some s.committed⟩)
  | .commit =>
    match s.copy with
    | some copy => .ok (.ok (), ⟨copy, none⟩)
    | none => .error .noTransaction
  | .rollback =>
    match s.copy with
    | some _ => .ok (.ok (), ⟨s.committed, none⟩)
    | none => .error .noTransaction
  | .call c =>
    match s.copy with
    | some copy => .ok ((copy.call c).1, ⟨s.committed, some (copy.call c).2⟩)
    | none => .error .noTransaction
  | .query q => (s.look fun t => t.answer q).map fun answer => (.ok answer, s)

end Snapshot

/-! ## Sessions -/

/-- What can be read of the tables besides the queries of the service. -/
inductive Reading where
  | post (id : Uuid)
  | versionsOf (post : Uuid)
  | linksOf (version : Uuid)

abbrev Reading.Answer : Reading → Type
  | post _ => Option Post
  | versionsOf _ => List Version
  | linksOf _ => List Link

def Tables.read (t : Tables) : (r : Reading) → r.Answer
  | .post id => t.posts.get? id
  | .versionsOf post => versionsOfPost t.versions.rows post
  | .linksOf version => t.linksOf version

/-- What can be done with a store: something is asked of it, its tables are read, the open
transaction is dropped, or the open transaction is ended as a result asks for. -/
inductive Action (α : Type) where
  | access (a : Access)
  | read (r : Reading)
  | drop
  | finish (result : Except Error α)

abbrev Action.Answer {α : Type} : Action α → Type
  | access a => Except Store.Refusal (Except Error a.Answer)
  | read r => Except Store.Refusal r.Answer
  | drop => Unit
  | finish _ => Outcome (Except Error α)

/-- Whether an action ends the open transaction without a commit. -/
def Action.discards {α : Type} : Action α → Bool
  | access .rollback | drop | finish (.error _) => true
  | _ => false

/-- An action of a session: how it was answered, and which tables were committed after it. -/
structure Observation (α : Type) where
  action : Action α
  answer : action.Answer
  committed : Tables

variable {α : Type}

/-- The answer and the next state of something asked of a store; who is refused changes nothing. -/
def settle {σ β : Type} (s : σ) : Except Store.Refusal (β × σ) → Except Store.Refusal β × σ
  | .ok (answer, s) => (.ok answer, s)
  | .error refusal => (.error refusal, s)

/-- Nothing disturbs the runs. -/
def Surroundings.undisturbed (clock : Nat → Instant) (ids : Nat → Uuid) : Surroundings :=
  { clock, ids, faults := fun _ _ => none }

namespace Store

/-- The tables that are left when the open transaction, if there is one, is dropped. -/
def committed (s : Store) : Tables :=
  s.abandon.tables

/-- Does something with the store. -/
def act (s : Store) : (x : Action α) → x.Answer × Store
  | .access a => settle s (s.perform a)
  | .read r => (s.look fun t => t.read r, s)
  | .drop => ((), s.abandon)
  | .finish result =>
    let (outcome, w) := (Task.finish result).run.perform
      (.undisturbed (fun _ => .epoch) Uuid.ofNat) { World.initial with store := s }
    (outcome, w.store)

/-- Does one thing after another and keeps what is seen. -/
def session (s : Store) : List (Action α) → List (Observation α) × Store
  | [] => ([], s)
  | x :: rest =>
    let (answer, s') := s.act x
    let (observations, s'') := s'.session rest
    (⟨x, answer, s'.committed⟩ :: observations, s'')

/-- The store that copies instead, in the same situation. -/
def snapshot (s : Store) : Snapshot :=
  ⟨s.committed, s.transaction?.map (·.tables)⟩

end Store

namespace Snapshot

def act (s : Snapshot) : (x : Action α) → x.Answer × Snapshot
  | .access a => settle s (s.perform a)
  | .read r => (s.look fun t => t.read r, s)
  | .drop => ((), ⟨s.committed, none⟩)
  | .finish (.ok a) =>
    match s.copy with
    | some copy => (.answered (.ok a), ⟨copy, none⟩)
    | none => (.pending, s)
  | .finish (.error e) =>
    match s.copy with
    | some _ => (.answered (.error e), ⟨s.committed, none⟩)
    | none => (.pending, s)

def session (s : Snapshot) : List (Action α) → List (Observation α) × Snapshot
  | [] => ([], s)
  | x :: rest =>
    let (answer, s') := s.act x
    let (observations, s'') := s'.session rest
    (⟨x, answer, s'.committed⟩ :: observations, s'')

end Snapshot

/-! ## The two stores agree -/

namespace Store

/-- Ending a transaction as a result asks for, undisturbed, is a commit or a rollback of it. -/
theorem act_finish (t : Tables) (record : List Undo) (result : Except Error α) :
    (Store.mk t (some record)).act (.finish result) =
      (.answered result, match result with
        | .ok _ => ⟨t, none⟩
        | .error _ => ⟨(Transaction.mk t record).undone, none⟩) := by
  cases result with
  | ok a =>
    simp only [act, Task.run_finish_ok, Script.perform, Script.run, Surroundings.undisturbed]
    rfl
  | error e =>
    simp only [act, Task.run_finish_error, Script.perform, Script.run, Surroundings.undisturbed]
    rfl

/-- Without an open transaction there is nothing to end, and whoever waits for it waits forever. -/
theorem act_finish_free (t : Tables) (result : Except Error α) :
    (Store.mk t none).act (.finish result) = (.pending, ⟨t, none⟩) := by
  cases result with
  | ok a =>
    simp only [act, Task.run_finish_ok, Script.perform, Script.run, Surroundings.undisturbed]
    rfl
  | error e =>
    simp only [act, Task.run_finish_error, Script.perform, Script.run, Surroundings.undisturbed]
    rfl

/-- **The commuting square.** The store that copies answers like the store with the undo record, and
both stand for the same tables and the same copy afterwards. -/
theorem snapshot_act (s : Store) (x : Action α) :
    s.snapshot.act x = ((s.act x).1, (s.act x).2.snapshot) := by
  obtain ⟨t, _ | record⟩ := s
  · cases x with
    | access a => cases a <;> rfl
    | read r => rfl
    | drop => rfl
    | finish result =>
      rw [act_finish_free]
      cases result <;> rfl
  · cases x with
    | access a =>
      cases a with
      | call c =>
        obtain ⟨hanswer, htables, hundone⟩ := Transaction.perform_eq ⟨t, record⟩ c
        change (Except.ok (t.call c).1, Snapshot.mk _ (some (t.call c).2)) =
          (Except.ok (Transaction.perform ⟨t, record⟩ c).1,
            Snapshot.mk (Transaction.perform ⟨t, record⟩ c).2.undone
              (some (Transaction.perform ⟨t, record⟩ c).2.tables))
        rw [hanswer, htables, hundone]
        rfl
      | begin => rfl
      | commit => rfl
      | rollback => rfl
      | query q => rfl
    | read r => rfl
    | drop => rfl
    | finish result =>
      rw [act_finish]
      cases result <;> rfl

/-- A whole session with the store that copies is the session with the store that records. -/
theorem snapshot_session (s : Store) (actions : List (Action α)) :
    s.snapshot.session actions = ((s.session actions).1, (s.session actions).2.snapshot) := by
  induction actions generalizing s with
  | nil => rfl
  | cons x rest ih =>
    simp only [Snapshot.session, session, snapshot_act, ih]
    rfl

theorem eq_of_snapshot_eq {s : Store} {t : Tables} (h : s.snapshot = ⟨t, none⟩) :
    s = ⟨t, none⟩ := by
  obtain ⟨t', _ | record⟩ := s
  · cases h
    rfl
  · cases h

end Store

/-! ## Transactions that are discarded -/

namespace Snapshot

theorem session_append (s : Snapshot) (xs ys : List (Action α)) :
    (s.session (xs ++ ys)).2 = ((s.session xs).2.session ys).2 := by
  induction xs generalizing s with
  | nil => rfl
  | cons x rest ih => exact ih (s.act x).2

/-- Calls leave the transaction open and the committed tables as they are. -/
theorem session_calls (calls : List Call) (t copy : Tables) :
    ∃ copy', ((Snapshot.mk t (some copy)).session
      (calls.map fun c => (.access (.call c) : Action α))).2 = ⟨t, some copy'⟩ := by
  induction calls generalizing copy with
  | nil => exact ⟨copy, rfl⟩
  | cons c rest ih => exact ih (copy.call c).2

theorem act_discards {x : Action α} (h : x.discards = true) (t copy : Tables) :
    ((Snapshot.mk t (some copy)).act x).2 = ⟨t, none⟩ := by
  cases x with
  | access a =>
    cases a with
    | rollback => rfl
    | begin => cases h
    | commit => cases h
    | call c => cases h
    | query q => cases h
  | read r => cases h
  | drop => rfl
  | finish result =>
    cases result with
    | ok a => cases h
    | error e => rfl

theorem session_discarded (t : Tables) (calls : List Call) {x : Action α}
    (h : x.discards = true) :
    ((Snapshot.mk t none).session
      (.access .begin :: calls.map (fun c => .access (.call c)) ++ [x])).2 = ⟨t, none⟩ := by
  rw [session_append]
  obtain ⟨copy, hcalls⟩ := session_calls (α := α) calls t t
  change ((((Snapshot.mk t (some t)).session _).2).session [x]).2 = _
  rw [hcalls]
  exact act_discards h t copy

end Snapshot

/-- **The store with the undo record refines the store that copies.** Whatever is done with a store,
in whatever state it is, the store that copies gives the same answers and has the same committed
tables after every step. A transaction that does not end with a commit leaves the store exactly as
it was, whatever was called in it. What can be read is committed, and nothing can be read of an open
transaction from outside. -/
theorem store_refines_snapshot :
    (∀ (s : Store) (actions : List (Action α)),
      (s.session actions).1 = (s.snapshot.session actions).1 ∧
      (s.session actions).2.snapshot = (s.snapshot.session actions).2) ∧
    (∀ (t : Tables) (calls : List Call) (x : Action α), x.discards = true →
      ((Store.mk t none).session
        (.access .begin :: calls.map (fun c => .access (.call c)) ++ [x])).2 = ⟨t, none⟩) ∧
    (∀ (s : Store) (q : Query), s.perform (.query q) =
      if s.isLocked then .error .locked else .ok (.ok (s.committed.answer q), s)) ∧
    (∀ (s : Store) (r : Reading), (s.look fun t => t.read r) =
      if s.isLocked then .error .locked else .ok (s.committed.read r)) := by
  refine ⟨fun s actions => ?_, fun t calls x h => ?_, fun s q => ?_, fun s r => ?_⟩
  · rw [Store.snapshot_session]
    exact ⟨rfl, rfl⟩
  · apply Store.eq_of_snapshot_eq
    have hsession := congrArg Prod.snd (Store.snapshot_session ⟨t, none⟩
      (.access .begin :: calls.map (fun c => .access (.call c)) ++ [x]))
    exact hsession.symm.trans (Snapshot.session_discarded t calls h)
  · obtain ⟨t, _ | record⟩ := s <;> rfl
  · obtain ⟨t, _ | record⟩ := s <;> rfl

end Weblog
