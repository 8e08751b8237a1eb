import Weblog.Proofs.Body
import Weblog.Proofs.Store.Snapshot

/-!
# Runs of transactions

What a transaction comes to, whatever faults strike it, when no other is open (`transact_cases`):
what was done in it stands, or it was undone after an error, or it was struck and left no trace of
itself. What is answered when its end fails is told by `run_transact_of_error` and
`run_transact_of_ok`.
-/

namespace Weblog

variable {α : Type}

/-! ## Stores inside and outside of a transaction -/

/-- A call in a transaction. -/
def Access.IsCall (a : Access) : Prop :=
  ∃ c, a = .call c

def Access.IsQuery (a : Access) : Prop :=
  ∃ q, a = .query q

/-- A transaction that began with some tables is open and has written others. -/
def Store.Working (start : Tables) (store : Store) (t : Tables) : Prop :=
  ∃ record, store = ⟨t, some record⟩ ∧ (Transaction.mk t record).undone = start

/-- No transaction is open. -/
def Store.Free (store : Store) (t : Tables) : Prop :=
  store = ⟨t, none⟩

/-- No transaction is open, and the tables are still what they were. -/
def Store.Idle (start : Tables) (store : Store) (t : Tables) : Prop :=
  t = start ∧ store.Free start

theorem Store.abandon_free {store : Store} {t : Tables} (h : store.Free t) :
    store.abandon = store := by
  rw [h]
  rfl

theorem Store.Working.begin (t : Tables) : Store.Working t ⟨t, some []⟩ t :=
  ⟨[], rfl, rfl⟩

theorem Store.Working.abandon {start t : Tables} {store : Store}
    (h : Store.Working start store t) : store.abandon = ⟨start, none⟩ := by
  obtain ⟨record, rfl, hundone⟩ := h
  exact congrArg (Store.mk · none) hundone

theorem answering_working (start : Tables) : Answering Access.IsCall (Store.Working start) where
  answers := by
    rintro _ t _ ⟨c, rfl⟩ ⟨record, rfl, hundone⟩
    obtain ⟨hanswer, htables, hundone'⟩ := Transaction.perform_eq ⟨t, record⟩ c
    refine ⟨⟨(t.call c).2, some (Transaction.perform ⟨t, record⟩ c).2.record⟩, ?_, _, rfl, ?_⟩
    · change Except.ok ((Transaction.perform ⟨t, record⟩ c).1,
        Store.mk (Transaction.perform ⟨t, record⟩ c).2.tables _) = _
      rw [hanswer, htables]
      rfl
    · change (Transaction.mk (t.call c).2 _).undone = start
      have hwritten : (t.call c).2 = (Transaction.perform ⟨t, record⟩ c).2.tables := htables.symm
      rw [hwritten]
      exact hundone'.trans hundone
  stays := by
    rintro _ ⟨c, rfl⟩
    exact ⟨by simp, by simp⟩

theorem answering_idle (start : Tables) : Answering Access.IsQuery (Store.Idle start) where
  answers := by
    rintro _ t _ ⟨q, rfl⟩ ⟨rfl, rfl⟩
    exact ⟨⟨t, none⟩, rfl, rfl, rfl⟩
  stays := by
    rintro _ ⟨q, rfl⟩
    exact ⟨by simp, by simp⟩

/-! ## The end of a transaction -/

section

variable {s : Surroundings} {w : World} {start t : Tables}

/-- A commit or a rollback ends the transaction as it should, or a fault strikes it, and then it
fails and leaves nothing of the transaction. -/
theorem run_end_cases {a : Access} (ha : a = .commit ∨ a = .rollback)
    {next : Except Error a.Answer → Script (Except Error α)} {u : a.Answer} {store' : Store}
    {result : Except Error α} (hstore : Store.Working start w.store t)
    (hperform : w.store.perform a = .ok (.ok u, store')) (hok : next (.ok u) = .done result)
    (herror : ∀ e, ∃ events e', ∀ w, (next (.error e)).run s w =
      (.answered (.error e'), { w with events := events ++ w.events })) :
    let ran := (Script.ask a next).run s w
    ran.2.clockReads = w.clockReads ∧ ran.2.trace = a :: w.trace ∧
      ((s.Calm w.trace ran.2.trace ∧
          ran = (.answered result, { w with trace := a :: w.trace, store := store' })) ∨
        (¬ s.Calm w.trace ran.2.trace ∧ ran.1.Fails ∧ ran.2.store.abandon = ⟨start, none⟩)) := by
  cases hfault : s.faults a.method (w.uses a.method) with
  | none =>
    rw [Script.run_ask_of_none hfault hperform, hok]
    exact ⟨rfl, rfl, .inl ⟨Surroundings.calm_single_iff.mpr hfault, rfl⟩⟩
  | some fault =>
    have hstruck : ¬ s.Calm w.trace (a :: w.trace) := Surroundings.not_calm_single hfault
    cases fault with
    | fails e reports =>
      obtain ⟨events, e', hrun⟩ := herror e
      rw [Script.run_ask_of_fails hfault, hrun]
      rcases ha with rfl | rfl <;>
        exact ⟨rfl, rfl, .inr ⟨hstruck, Outcome.fails_error e',
          congrArg Store.abandon hstore.abandon⟩⟩
    | panics =>
      rw [Script.run_ask_of_panics hfault]
      exact ⟨rfl, rfl, .inr ⟨hstruck, Outcome.fails_panicked _, hstore.abandon⟩⟩
    | hangs =>
      rw [Script.run_ask_of_hangs hfault]
      exact ⟨rfl, rfl, .inr ⟨hstruck, Outcome.fails_pending, hstore.abandon⟩⟩

/-- How a transaction is ended after a result. -/
def Access.ending : Except Error α → Access
  | .ok _ => .commit
  | .error _ => .rollback

/-- The tables when a transaction has been ended after a result: those that were written, or those
at its start. -/
def Tables.ended (start written : Tables) : Except Error α → Tables
  | .ok _ => written
  | .error _ => start

/-- The end of a transaction is the one that the result asks for, or a fault strikes it. -/
theorem run_finish_cases (hstore : Store.Working start w.store t) (result : Except Error α) :
    let ran := (Task.finish result).run.run s w
    ran.2.clockReads = w.clockReads ∧ ran.2.trace = .ending result :: w.trace ∧
      ((s.Calm w.trace ran.2.trace ∧ ran = (.answered result, { w with
          trace := .ending result :: w.trace, store := ⟨start.ended t result, none⟩ })) ∨
        (¬ s.Calm w.trace ran.2.trace ∧ ran.1.Fails ∧ ran.2.store.abandon = ⟨start, none⟩)) := by
  obtain ⟨record, hopen, hundone⟩ := id hstore
  cases result with
  | ok a =>
    rw [Task.run_finish_ok]
    have hcommit : w.store.perform .commit = .ok (.ok (), ⟨t, none⟩) := by rw [hopen]; rfl
    exact run_end_cases (.inl rfl) hstore hcommit rfl fun e => ⟨[], e, fun w => rfl⟩
  | error e =>
    rw [Task.run_finish_error]
    have hrollback : w.store.perform .rollback = .ok (.ok (), ⟨start, none⟩) := by
      rw [hopen, ← hundone]
      rfl
    exact run_end_cases (.inr rfl) hstore hrollback rfl
      fun failure => ⟨[.rollbackFailed failure e], e, fun w => rfl⟩

end

/-! ## Whole transactions -/

/-- What a run of a transaction came to: it met no fault, and what was done in it stands or was
undone as its result asks for, or it was struck, and nothing of it is left. -/
inductive Transacted (s : Surroundings) (w : World) (t : Tables)
    (meant : Except Error α × Workspace) (ran : Outcome (Except Error α) × World) : Prop where
  | ended (calls : List Access) (hcalls : ∀ a ∈ calls, a.IsCall)
      (htrace : ran.2.trace = .ending meant.1 :: (calls ++ .begin :: w.trace))
      (hcalm : s.Calm w.trace ran.2.trace)
      (hanswer : ran.1 = .answered meant.1)
      (hstore : ran.2.store = ⟨t.ended meant.2.tables meant.1, none⟩)
      (hids : ran.2.idsUsed = w.idsUsed + meant.2.taken)
      (hevents : ran.2.events = meant.2.events ++ w.events)
  | struck (hstruck : ¬ s.Calm w.trace ran.2.trace) (hfails : ran.1.Fails)
      (hstore : ran.2.store.abandon = ⟨t, none⟩)

section

variable {s : Surroundings} {w w₀ : World} {t t₁ : Tables} {x : Script (Except Error α)}
  {meant : Except Error α × Workspace}

/-- A transaction that a fault strikes when it begins comes to nothing. -/
theorem transacted_of_begin_struck {fault : Fault} (body : Task α) (hfree : w.store.Free t)
    (hfault : s.faults Access.begin.method (w.uses Access.begin.method) = some fault) :
    let ran := (Task.transact body).run.run s w
    Transacted s w t meant ran ∧ ran.2.clockReads = w.clockReads := by
  have hstruck : ¬ s.Calm w.trace (.begin :: w.trace) := Surroundings.not_calm_single hfault
  have hstore : w.store.abandon = ⟨t, none⟩ := congrArg Store.abandon hfree
  rw [Task.run_transact]
  cases fault with
  | fails e reports =>
    rw [Script.run_ask_of_fails hfault]
    exact ⟨.struck hstruck (Outcome.fails_error e) hstore, rfl⟩
  | panics =>
    rw [Script.run_ask_of_panics hfault]
    exact ⟨.struck hstruck (Outcome.fails_panicked _) hstore, rfl⟩
  | hangs =>
    rw [Script.run_ask_of_hangs hfault]
    exact ⟨.struck hstruck Outcome.fails_pending hstore, rfl⟩

/-- After a body that met no fault comes the end that its result asks for. -/
theorem transacted_of_calm {calls : List Access} (hcalls : ∀ a ∈ calls, a.IsCall)
    (hbegin : s.Calm w.trace (.begin :: w.trace)) (hanswer : (x.run s w₀).1 = .answered meant.1)
    (htrace : (x.run s w₀).2.trace = calls ++ .begin :: w.trace)
    (hcalm : s.Calm (.begin :: w.trace) (x.run s w₀).2.trace)
    (hat : World.At (Store.Working t) w.idsUsed w.events (x.run s w₀).2 meant.2) :
    let ran := (x.bind fun result => (Task.finish result).run).run s w₀
    Transacted s w t meant ran ∧ ran.2.clockReads = (x.run s w₀).2.clockReads := by
  rw [Script.run_bind]
  generalize x.run s w₀ = ran at *
  obtain ⟨_, w₁⟩ := ran
  obtain rfl := hanswer
  obtain ⟨hclock, hlast, hends⟩ := run_finish_cases (s := s) hat.store meant.1
  refine ⟨?_, hclock⟩
  rcases hends with ⟨hcalm', heq⟩ | ⟨hstruck, hfails, habandon⟩
  · refine .ended calls hcalls (hlast.trans (congrArg _ htrace))
      (hbegin.trans (hcalm.trans hcalm')) ?_ ?_ ?_ ?_
    · exact congrArg Prod.fst heq
    · exact congrArg (fun ran => ran.2.store) heq
    · exact (congrArg (fun ran => ran.2.idsUsed) heq).trans hat.ids
    · exact (congrArg (fun ran => ran.2.events) heq).trans hat.events
  · refine .struck (fun h => hstruck (h.tail ⟨calls ++ [.begin], ?_⟩)) hfails habandon
    rw [htrace, List.append_assoc]
    rfl

/-- A body that a fault struck comes to nothing: it stops there, or it fails and is rolled back. -/
theorem transacted_of_struck (hfails : (x.run s w₀).1.Fails)
    (hstruck : ¬ s.Calm (.begin :: w.trace) (x.run s w₀).2.trace)
    (hstore : Store.Working t (x.run s w₀).2.store t₁) :
    let ran := (x.bind fun result => (Task.finish result).run).run s w₀
    Transacted s w t meant ran ∧ ran.2.clockReads = (x.run s w₀).2.clockReads := by
  rw [Script.run_bind]
  generalize x.run s w₀ = ran at *
  obtain ⟨o, w₁⟩ := ran
  have hbroken : ∀ w₂ : World, (∃ asked, w₂.trace = asked ++ w₁.trace) →
      ¬ s.Calm w.trace w₂.trace := fun w₂ hlater h =>
    hstruck ((h.init hlater).tail ⟨[.begin], rfl⟩)
  cases o with
  | answered result =>
    cases result with
    | ok a => exact absurd rfl (hfails a)
    | error e =>
      have hfinish := run_finish_cases (s := s) hstore (.error e : Except Error α)
      dsimp only
      generalize (Task.finish (.error e)).run.run s w₁ = finished at hfinish ⊢
      obtain ⟨hclock, htrace, hends⟩ := hfinish
      refine ⟨?_, hclock⟩
      rcases hends with ⟨-, rfl⟩ | ⟨-, hfails', habandon⟩
      · exact .struck (hbroken _ ⟨[_], htrace⟩) (Outcome.fails_error e) rfl
      · exact .struck (hbroken _ ⟨[_], htrace⟩) hfails' habandon
  | panicked m =>
    exact ⟨.struck (hbroken w₁ ⟨[], rfl⟩) (Outcome.fails_panicked m) hstore.abandon, rfl⟩
  | pending =>
    exact ⟨.struck (hbroken w₁ ⟨[], rfl⟩) Outcome.fails_pending hstore.abandon, rfl⟩

end

/-- **Transactions.** A transaction that begins while none is open evaluates its body and ends as
the result asks for, or a fault strikes it and nothing of it is left. It reads no clock. -/
theorem transact_cases (s : Surroundings) (now : Instant) {body : Task α}
    (hbody : body.Only Access.IsCall) {w : World} {t : Tables} (hfree : w.store.Free t) :
    Transacted s w t (body.eval now (fun n => s.ids (w.idsUsed + n)) ⟨t, 0, []⟩)
        ((Task.transact body).run.run s w) ∧
      ((Task.transact body).run.run s w).2.clockReads = w.clockReads := by
  cases hfault : s.faults Access.begin.method (w.uses Access.begin.method) with
  | some fault => exact transacted_of_begin_struck body hfree hfault
  | none =>
    have hbegin : w.store.perform .begin = .ok (.ok (), ⟨t, some []⟩) := by rw [hfree]; rfl
    rw [Task.run_transact, Script.run_ask_of_none hfault hbegin]
    have hat : World.At (Store.Working t) w.idsUsed w.events
        { w with trace := .begin :: w.trace, store := ⟨t, some []⟩ } ⟨t, 0, []⟩ :=
      ⟨Store.Working.begin t, rfl, rfl⟩
    obtain ⟨hclock, ⟨calls, hcalls, htrace⟩, hends⟩ :=
      Script.run_only s now (answering_working t) hbody hat
    rcases hends with ⟨hcalm, hanswer, hat₁⟩ | ⟨hstruck, hfails, t₁, hstore⟩
    · have hcalm₁ := (Surroundings.calm_single_iff (a := .begin)).mpr hfault
      have hended := transacted_of_calm hcalls hcalm₁ hanswer htrace hcalm hat₁
      exact hended.imp_right (·.trans hclock)
    · exact (transacted_of_struck hfails hstruck hstore).imp_right (·.trans hclock)

/-! ## Ends that fail -/

/-- The world in which the body of a transaction starts. -/
def World.begun (w : World) : World :=
  { w with trace := .begin :: w.trace, store := { w.store with record := some [] } }

section

variable {s : Surroundings} {body : Task α} {w w' : World} {t : Tables}
  (hfree : w.store.Free t) (hbegin : s.faults .begin (w.uses .begin) = none)

include hfree hbegin

theorem run_transact_begun :
    (Task.transact body).run.run s w =
      (body.run.bind fun result => (Task.finish result).run).run s w.begun := by
  have hperform : w.store.perform .begin = .ok (.ok (), { w.store with record := some [] }) := by
    rw [hfree]
    rfl
  rw [Task.run_transact, Script.run_ask_of_none hbegin hperform]
  rfl

/-- That a rollback fails does not hide the error that asked for it. -/
theorem run_transact_of_error {e failure : Error} {events : List Event}
    (hbody : body.run.run s w.begun = (.answered (.error e), w'))
    (hrollback : s.faults .rollback (w'.uses .rollback) = some (.fails failure events)) :
    ((Task.transact body).run.run s w).1 = .answered (.error e) := by
  rw [run_transact_begun hfree hbegin, Script.run_bind, hbody]
  change ((Task.finish (.error e)).run.run s w').1 = _
  rw [Task.run_finish_error, Script.run_ask_of_fails hrollback]
  rfl

/-- That a commit fails is the error of the transaction. -/
theorem run_transact_of_ok {a : α} {failure : Error} {events : List Event}
    (hbody : body.run.run s w.begun = (.answered (.ok a), w'))
    (hcommit : s.faults .commit (w'.uses .commit) = some (.fails failure events)) :
    ((Task.transact body).run.run s w).1 = .answered (.error failure) := by
  rw [run_transact_begun hfree hbegin, Script.run_bind, hbody]
  change ((Task.finish (.ok a)).run.run s w').1 = _
  rw [Task.run_finish_ok, Script.run_ask_of_fails hcommit]
  rfl

end

end Weblog
