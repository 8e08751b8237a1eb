import Weblog.Proofs.Script
import Weblog.Proofs.Store.Call

/-!
# Scripts on bare tables

What is done between the start and the end of a transaction, and what is done outside of any, is
done with one kind of access only and ends at the first error of the store (`Script.Only`). Such a
script has a meaning without worlds and without faults: what it makes of bare tables
(`Script.eval`).

* `run_only`: in a store that stands for the tables, a run of the script either met no fault and did
  just that, or it met one, and then it failed.
* `eval_congr`: the meaning depends on the identifiers that are taken and on no others.
-/

namespace Weblog

variable {α β : Type}

/-! ## The kind of a script -/

/-- The script asks of the store only what passes a test, reads no clock, and ends with the error
that the store answers first. -/
def Script.Only (ok : Access → Prop) : Script (Except Error α) → Prop
  | .done _ => True
  | .readClock _ => False
  | .takeId next => ∀ id, (next id).Only ok
  | .report _ rest => rest.Only ok
  | .ask a next =>
    ok a ∧ (∀ e, next (.error e) = .done (.error e)) ∧ ∀ answer, (next (.ok answer)).Only ok

/-- After any answer the script goes on as one of its kind. -/
theorem Script.Only.next {ok : Access → Prop} {a : Access}
    {next : Except Error a.Answer → Script (Except Error α)} (h : (Script.ask a next).Only ok)
    (answer : Except Error a.Answer) : (next answer).Only ok := by
  obtain ⟨-, herror, hnext⟩ := h
  cases answer with
  | ok answer => exact hnext answer
  | error e => exact herror e ▸ trivial

def Task.Only (ok : Access → Prop) (x : Task α) : Prop :=
  Script.Only ok x.run

namespace Task.Only

variable {ok : Access → Prop}

theorem pure (a : α) : Task.Only ok (pure a : Task α) :=
  trivial

theorem throw (e : Error) : Task.Only ok (throw e : Task α) :=
  trivial

theorem ofExcept (result : Except Error α) : Task.Only ok (Task.ofExcept result) :=
  trivial

theorem takeId : Task.Only ok Task.takeId :=
  fun _ => trivial

theorem report (e : Event) : Task.Only ok (Task.report e) :=
  trivial

theorem ask {a : Access} (h : ok a) : Task.Only ok (Task.ask a) :=
  ⟨h, fun _ => rfl, fun _ => trivial⟩

theorem require (e : Error) (a? : Option α) : Task.Only ok (Task.require e a?) := by
  cases a? with
  | none => exact throw e
  | some a => exact pure a

theorem bind {x : Task α} {f : α → Task β} (hx : x.Only ok) (hf : ∀ a, (f a).Only ok) :
    (x >>= f).Only ok := by
  unfold Task.Only at hx ⊢
  rw [Task.run_bind]
  generalize x.run = script at hx
  induction script with
  | done result =>
    cases result with
    | ok a => exact hf a
    | error e => exact trivial
  | readClock next ih => exact hx
  | takeId next ih => exact fun id => ih id (hx id)
  | report e rest ih => exact ih hx
  | ask a next ih =>
    obtain ⟨hok, herror, hnext⟩ := hx
    refine ⟨hok, fun e => ?_, fun answer => ih _ (hnext answer)⟩
    change (next (.error e)).bind _ = _
    rw [herror]
    rfl

theorem map {x : Task α} (f : α → β) (hx : x.Only ok) : (f <$> x).Only ok := by
  rw [map_eq_pure_bind]
  exact hx.bind fun a => pure (f a)

theorem mono {ok' : Access → Prop} {x : Task α} (hx : x.Only ok) (h : ∀ a, ok a → ok' a) :
    x.Only ok' := by
  unfold Task.Only at hx ⊢
  generalize x.run = script at hx
  induction script with
  | done result => exact trivial
  | readClock next ih => exact hx
  | takeId next ih => exact fun id => ih id (hx id)
  | report e rest ih => exact ih hx
  | ask a next ih => exact ⟨h a hx.1, hx.2.1, fun answer => ih _ (hx.2.2 answer)⟩

end Task.Only

/-! ## Evaluation -/

/-- Asks something of bare tables. The start and the end of a transaction are nothing to them. -/
def Tables.ask (t : Tables) : (a : Access) → Except Error a.Answer × Tables
  | .call c => t.call c
  | .query q => (.ok (t.answer q), t)
  | .begin | .commit | .rollback => (.ok (), t)

/-- What a script works on: tables, how many identifiers it took, and what it reported, newest
first. -/
structure Workspace where
  tables : Tables
  taken : Nat
  events : List Event

/-- Evaluates a script on bare tables at one instant, with the identifiers it may take. -/
def Script.eval (now : Instant) (fresh : Nat → Uuid) : Script α → Workspace → α × Workspace
  | .done a, ws => (a, ws)
  | .readClock next, ws => (next now).eval now fresh ws
  | .takeId next, ws => (next (fresh ws.taken)).eval now fresh { ws with taken := ws.taken + 1 }
  | .report e rest, ws => rest.eval now fresh { ws with events := e :: ws.events }
  | .ask a next, ws =>
    (next (ws.tables.ask a).1).eval now fresh { ws with tables := (ws.tables.ask a).2 }

def Task.eval (now : Instant) (fresh : Nat → Uuid) (x : Task α) (ws : Workspace) :
    Except Error α × Workspace :=
  Script.eval now fresh x.run ws

section

variable (now : Instant) (fresh : Nat → Uuid) (ws : Workspace)

theorem Script.eval_bind (x : Script α) (f : α → Script β) :
    (x.bind f).eval now fresh ws =
      (f (x.eval now fresh ws).1).eval now fresh (x.eval now fresh ws).2 := by
  induction x generalizing ws with
  | done a => rfl
  | readClock next ih => exact ih _ _
  | takeId next ih => exact ih _ _
  | report e rest ih => exact ih _
  | ask a next ih => exact ih _ _

namespace Task

@[simp] theorem eval_call (c : Call) :
    (call c).eval now fresh ws =
      ((ws.tables.call c).1, { ws with tables := (ws.tables.call c).2 }) := rfl

theorem eval_bind (x : Task α) (f : α → Task β) :
    (x >>= f).eval now fresh ws = match x.eval now fresh ws with
      | (.ok a, ws') => (f a).eval now fresh ws'
      | (.error e, ws') => (.error e, ws') := by
  unfold eval
  rw [run_bind, Script.eval_bind]
  rcases Script.eval now fresh x.run ws with ⟨_ | a, ws'⟩ <;> rfl

variable {now fresh ws} in
theorem eval_bind_ok {x : Task α} {f : α → Task β} {a : α} {ws' : Workspace}
    (h : x.eval now fresh ws = (.ok a, ws')) :
    (x >>= f).eval now fresh ws = (f a).eval now fresh ws' := by
  rw [eval_bind, h]

variable {now fresh ws} in
theorem eval_bind_error {x : Task α} {f : α → Task β} {e : Error} {ws' : Workspace}
    (h : x.eval now fresh ws = (.error e, ws')) :
    (x >>= f).eval now fresh ws = (.error e, ws') := by
  rw [eval_bind, h]

variable {now fresh ws} in
/-- A call does to the tables of a workspace what it does to bare tables. -/
theorem eval_call_of {c : Call} {answer : Except Error c.Answer} {t : Tables}
    (h : ws.tables.call c = (answer, t)) :
    (call c).eval now fresh ws = (answer, { ws with tables := t }) := by
  rw [eval_call, h]

variable {now fresh ws} in
/-- What succeeds has done its first part and goes on with the result of that. -/
theorem eval_bind_eq_ok {x : Task α} {f : α → Task β} {b : β} {ws' : Workspace}
    (h : (x >>= f).eval now fresh ws = (.ok b, ws')) :
    ∃ a ws₁, x.eval now fresh ws = (.ok a, ws₁) ∧ (f a).eval now fresh ws₁ = (.ok b, ws') := by
  rw [eval_bind] at h
  rcases hx : x.eval now fresh ws with ⟨e | a, ws₁⟩
  · rw [hx] at h
    cases h
  · rw [hx] at h
    exact ⟨a, ws₁, rfl, h⟩

variable {now fresh ws} in
/-- What succeeds and begins with a call goes on with the answer and the tables of the call. -/
theorem eval_call_bind_eq_ok {c : Call} {f : c.Answer → Task β} {b : β} {ws' : Workspace}
    (h : (call c >>= f).eval now fresh ws = (.ok b, ws')) :
    ∃ a t, ws.tables.call c = (.ok a, t) ∧
      (f a).eval now fresh { ws with tables := t } = (.ok b, ws') := by
  obtain ⟨a, ws₁, hcall, h⟩ := eval_bind_eq_ok h
  obtain ⟨hanswer, rfl⟩ := Prod.mk.inj hcall
  exact ⟨a, _, Prod.ext hanswer rfl, h⟩

variable {now fresh ws} in
theorem eval_require_eq_ok {e : Error} {a? : Option α} {a : α} {ws' : Workspace}
    (h : (require e a?).eval now fresh ws = (.ok a, ws')) : a? = some a ∧ ws' = ws := by
  cases a? with
  | none => cases h
  | some b =>
    cases h
    exact ⟨rfl, rfl⟩

theorem eval_map (f : α → β) (x : Task α) :
    (f <$> x).eval now fresh ws =
      ((x.eval now fresh ws).1.map f, (x.eval now fresh ws).2) := by
  rw [map_eq_pure_bind, eval_bind]
  rcases x.eval now fresh ws with ⟨_ | a, ws'⟩ <;> rfl

end Task

end

/-! ## Identifiers -/

namespace Script

theorem taken_le_eval (now : Instant) (fresh : Nat → Uuid) (x : Script α) (ws : Workspace) :
    ws.taken ≤ (x.eval now fresh ws).2.taken := by
  induction x generalizing ws with
  | done a => exact Nat.le_refl _
  | readClock next ih => exact ih _ ws
  | takeId next ih => exact Nat.le_trans (Nat.le_succ _) (ih _ { ws with taken := ws.taken + 1 })
  | report e rest ih => exact ih { ws with events := e :: ws.events }
  | ask a next ih => exact ih _ { ws with tables := (ws.tables.ask a).2 }

variable {ok : Access → Prop} {now now' : Instant} {fresh fresh' : Nat → Uuid}

/-- Two sources that agree on the identifiers that are taken mean the same to such a script, at
whatever instant. -/
theorem eval_congr {x : Script (Except Error α)} (hx : x.Only ok) (ws : Workspace)
    (h : ∀ n, ws.taken ≤ n → n < (x.eval now fresh ws).2.taken → fresh' n = fresh n) :
    x.eval now' fresh' ws = x.eval now fresh ws := by
  induction x generalizing ws with
  | done a => rfl
  | readClock next ih => exact absurd hx id
  | takeId next ih =>
    have hle := taken_le_eval now fresh (next (fresh ws.taken)) { ws with taken := ws.taken + 1 }
    have htaken : fresh' ws.taken = fresh ws.taken := h _ (Nat.le_refl _) hle
    simp only [eval, htaken]
    exact ih _ (hx _) { ws with taken := ws.taken + 1 }
      fun n hn hlt => h n (Nat.le_of_succ_le hn) hlt
  | report e rest ih => exact ih hx { ws with events := e :: ws.events } h
  | ask a next ih =>
    have honly : (next (ws.tables.ask a).1).Only ok := Only.next hx _
    exact ih _ honly { ws with tables := (ws.tables.ask a).2 } h

/-- What holds of the tables and is kept by each access of a script is kept by the script. -/
theorem eval_stays {P : Tables → Prop} (hok : ∀ a t, ok a → P t → P (Tables.ask t a).2)
    {x : Script (Except Error α)} (hx : x.Only ok) (ws : Workspace) (h : P ws.tables) :
    P (x.eval now fresh ws).2.tables := by
  induction x generalizing ws with
  | done a => exact h
  | readClock next ih => exact absurd hx id
  | takeId next ih => exact ih _ (hx _) { ws with taken := ws.taken + 1 } h
  | report e rest ih => exact ih hx { ws with events := e :: ws.events } h
  | ask a next ih =>
    have hnext : (next (ws.tables.ask a).1).Only ok := Only.next hx _
    exact ih _ hnext { ws with tables := (ws.tables.ask a).2 } (hok a ws.tables hx.1 h)

/-- What none of the accesses of a script changes is not changed by the script. -/
theorem eval_keeps {γ : Type} {f : Tables → γ} (hok : ∀ a t, ok a → f (Tables.ask t a).2 = f t)
    {x : Script (Except Error α)} (hx : x.Only ok) (ws : Workspace) :
    f (x.eval now fresh ws).2.tables = f ws.tables :=
  eval_stays (P := fun t => f t = f ws.tables) (fun a t ha h => (hok a t ha).trans h) hx ws rfl

end Script

/-! ## Runs -/

/-- The stores that stand for tables answer for them: to accesses of some kind they answer what the
tables answer and stand for what becomes of those, and no such access ends a transaction. -/
structure Answering (ok : Access → Prop) (stands : Store → Tables → Prop) : Prop where
  answers : ∀ {store t a}, ok a → stands store t →
    ∃ store', store.perform a = .ok ((t.ask a).1, store') ∧ stands store' (t.ask a).2
  stays : ∀ {a}, ok a → a ≠ .commit ∧ a ≠ .rollback

/-- A world in which a script has come as far as a workspace says, counted from a number of
identifiers and from events before it. -/
structure World.At (stands : Store → Tables → Prop) (ids : Nat) (events : List Event) (w : World)
    (ws : Workspace) : Prop where
  store : stands w.store ws.tables
  ids : w.idsUsed = ids + ws.taken
  events : w.events = ws.events ++ events

/-- What a run of a script of some kind came to: it met no fault and did what the script means, or
it met one and failed. -/
structure Script.Ran (s : Surroundings) (ok : Access → Prop) (stands : Store → Tables → Prop)
    (ids : Nat) (events : List Event) (w : World) (meant : Except Error α × Workspace)
    (ran : Outcome (Except Error α) × World) : Prop where
  clock : ran.2.clockReads = w.clockReads
  asked : ∃ asked, (∀ a ∈ asked, ok a) ∧ ran.2.trace = asked ++ w.trace
  ends : (s.Calm w.trace ran.2.trace ∧ ran.1 = .answered meant.1 ∧
      World.At stands ids events ran.2 meant.2) ∨
    (¬ s.Calm w.trace ran.2.trace ∧ ran.1.Fails ∧ ∃ t, stands ran.2.store t)

namespace Script

theorem fail_store {w : World} {a : Access} (h : a ≠ .commit ∧ a ≠ .rollback)
    (events : List Event) : (w.fail a events).store = w.store ∧
      (w.fail a events).clockReads = w.clockReads := by
  obtain ⟨hcommit, hrollback⟩ := h
  cases a with
  | commit => exact absurd rfl hcommit
  | rollback => exact absurd rfl hrollback
  | begin | call c | query q => exact ⟨rfl, rfl⟩

variable {ok : Access → Prop} {stands : Store → Tables → Prop} {ids : Nat} {events : List Event}

/-- An access that a fault strikes ends the script, and the store stands for what it did. -/
theorem ran_of_struck {s : Surroundings} {a : Access} {t : Tables} {fault : Fault} {w : World}
    {next : Except Error a.Answer → Script (Except Error α)} (meant : Except Error α × Workspace)
    (hanswering : Answering ok stands) (hok : ok a)
    (herror : ∀ e, next (.error e) = .done (.error e))
    (hfault : s.faults a.method (w.uses a.method) = some fault) (hstore : stands w.store t) :
    Ran s ok stands ids events w meant ((ask a next).run s w) := by
  have hasked : ∀ c ∈ [a], ok c := fun c hc => List.mem_singleton.mp hc ▸ hok
  have hstruck : ¬ s.Calm w.trace (a :: w.trace) := Surroundings.not_calm_single hfault
  cases fault with
  | fails e reports =>
    obtain ⟨hkept, hclock⟩ :=
      fail_store (w := { w with trace := a :: w.trace }) (hanswering.stays hok) reports
    rw [run_ask_of_fails hfault, herror]
    refine ⟨hclock, ⟨[a], hasked, trace_fail _ a reports⟩, .inr ⟨?_, Outcome.fails_error e, t, ?_⟩⟩
    · simpa only [run, trace_fail] using hstruck
    · rw [run, hkept]
      exact hstore
  | panics =>
    rw [run_ask_of_panics hfault]
    exact ⟨rfl, ⟨[a], hasked, rfl⟩, .inr ⟨hstruck, Outcome.fails_panicked _, t, hstore⟩⟩
  | hangs =>
    rw [run_ask_of_hangs hfault]
    exact ⟨rfl, ⟨[a], hasked, rfl⟩, .inr ⟨hstruck, Outcome.fails_pending, t, hstore⟩⟩

/-- **Runs and meanings.** In a store that stands for the tables, a run does what the script means
unless a fault strikes; struck, it fails and leaves a store that still stands for some tables. -/
theorem run_only (s : Surroundings) (now : Instant) (hanswering : Answering ok stands)
    {x : Script (Except Error α)} (hx : x.Only ok) {w : World} {ws : Workspace}
    (hw : World.At stands ids events w ws) :
    Ran s ok stands ids events w (x.eval now (fun n => s.ids (ids + n)) ws) (x.run s w) := by
  induction x generalizing w ws with
  | done a => exact ⟨rfl, ⟨[], by simp, rfl⟩, .inl ⟨s.calm_refl _, rfl, hw⟩⟩
  | readClock next ih => exact absurd hx id
  | takeId next ih =>
    have hid : next (s.ids w.idsUsed) = next (s.ids (ids + ws.taken)) := by rw [hw.ids]
    rw [run, eval, hid]
    have hat : World.At stands ids events { w with idsUsed := w.idsUsed + 1 }
        { ws with taken := ws.taken + 1 } :=
      ⟨hw.store, by simp only [hw.ids, Nat.add_assoc], hw.events⟩
    have hran := ih (s.ids (ids + ws.taken)) (hx _) hat
    exact ⟨hran.clock, hran.asked, hran.ends⟩
  | report e rest ih =>
    have hat : World.At stands ids events { w with events := e :: w.events }
        { ws with events := e :: ws.events } :=
      ⟨hw.store, hw.ids, congrArg (e :: ·) hw.events⟩
    have hran := ih hx hat
    exact ⟨hran.clock, hran.asked, hran.ends⟩
  | ask a next ih =>
    obtain ⟨hok, herror, hnext⟩ := hx
    have hasked : ∀ c ∈ [a], ok c := fun c hc => List.mem_singleton.mp hc ▸ hok
    cases hfault : s.faults a.method (w.uses a.method) with
    | some fault => exact ran_of_struck _ hanswering hok herror hfault hw.store
    | none =>
      obtain ⟨store', hstore, hstands'⟩ := hanswering.answers hok hw.store
      rw [run_ask_of_none hfault hstore]
      have hat : World.At stands ids events { w with trace := a :: w.trace, store := store' }
          { ws with tables := (ws.tables.ask a).2 } := ⟨hstands', hw.ids, hw.events⟩
      have hran := ih (ws.tables.ask a).1 (Only.next ⟨hok, herror, hnext⟩ _) hat
      obtain ⟨asked, hasked', htrace⟩ := hran.asked
      have hcalm := Surroundings.calm_cons_iff (s := s) ⟨asked, htrace⟩
      refine ⟨hran.clock, ⟨asked ++ [a], ?_, by rw [htrace]; simp⟩, ?_⟩
      · intro c hc
        rcases List.mem_append.mp hc with hc | hc
        · exact hasked' c hc
        · exact hasked c hc
      · rcases hran.ends with ⟨hc, hanswer, hat⟩ | ⟨hc, hfails⟩
        · exact .inl ⟨hcalm.mpr ⟨hfault, hc⟩, hanswer, hat⟩
        · exact .inr ⟨fun h => hc (hcalm.mp h).2, hfails⟩

end Script

end Weblog
