import Weblog.Proofs.Effect

/-!
# What the store is in between

A run leaves behind one store after every access, and most of them are never committed. They are
listed beside the run (`Script.visits`, `visitsAll`), each with the access that led to it, and the
list agrees with the run: its accesses are the trace of the run (`trace_performAll`) and its last
store is the store of the run (`store_performAll`).

* `Script.Through`: every access of a script leaves tables of which an invariant holds, whatever
  identifiers it takes.
* `visits_transact`: then the invariant holds after every access of a transaction with that script,
  wherever a fault strikes, and what a commit leaves is there when the transaction is over.
* `Script.Granted`: the store answers all that a script asks. Without faults every access is carried
  out then (`visits_of_granted`).
-/

namespace Weblog

variable {α β : Type}

/-- An access to the store: whether it was carried out and answered without an error, and the store
right after it. -/
structure Visit where
  access : Access
  done : Bool
  store : Store

/-- The store after the last of some accesses, or the store before them if there are none. -/
def storeAfter (store : Store) (visits : List Visit) : Store :=
  visits.foldl (fun _ v => v.store) store

theorem storeAfter_cases (store : Store) (visits : List Visit) :
    storeAfter store visits = store ∨ ∃ v ∈ visits, v.store = storeAfter store visits := by
  induction visits generalizing store with
  | nil => exact .inl rfl
  | cons v rest ih =>
    rcases ih v.store with heq | ⟨u, hu, heq⟩
    · exact .inr ⟨v, List.mem_cons_self, heq.symm⟩
    · exact .inr ⟨u, List.mem_cons_of_mem _ hu, heq⟩

/-- The accesses of a run in their order. -/
def Script.visits (s : Surroundings) : Script α → World → List Visit
  | .done _, _ => []
  | .readClock next, w =>
    visits s (next (s.clock w.clockReads)) { w with clockReads := w.clockReads + 1 }
  | .takeId next, w => visits s (next (s.ids w.idsUsed)) { w with idsUsed := w.idsUsed + 1 }
  | .report e rest, w => visits s rest { w with events := e :: w.events }
  | .ask a next, w =>
    let fault := s.faults a.method (w.uses a.method)
    let w := { w with trace := a :: w.trace }
    match fault with
    | some (.fails e events) =>
      ⟨a, false, (w.fail a events).store⟩ :: visits s (next (.error e)) (w.fail a events)
    | some .panics | some .hangs => [⟨a, false, w.store⟩]
    | none => match w.store.perform a with
      | .ok (answer, store) => ⟨a, answer.isOk, store⟩ :: visits s (next answer) { w with store }
      | .error _ => [⟨a, false, w.store⟩]

/-- The accesses of an operation. -/
def Operation.visits (s : Surroundings) (sanitizer : Sanitizer) (op : Operation) (w : World) :
    List Visit :=
  (op.task sanitizer).run.visits s w

/-- The accesses of operations that are done one after another. -/
def visitsAll (s : Surroundings) (sanitizer : Sanitizer) : List Operation → World → List Visit
  | [], _ => []
  | op :: rest, w =>
    op.visits s sanitizer w ++ visitsAll s sanitizer rest (op.perform s sanitizer w).2

namespace Script

/-! ## Steps -/

section

variable {s : Surroundings} {a : Access} {next : Except Error a.Answer → Script α} {w : World}

theorem visits_ask_of_none {answer : Except Error a.Answer} {store : Store}
    (hfault : s.faults a.method (w.uses a.method) = none)
    (hstore : w.store.perform a = .ok (answer, store)) :
    (ask a next).visits s w = ⟨a, answer.isOk, store⟩ ::
      (next answer).visits s { w with trace := a :: w.trace, store } := by
  simp only [visits, hfault, hstore]

theorem visits_ask_of_fails {e : Error} {events : List Event}
    (hfault : s.faults a.method (w.uses a.method) = some (.fails e events)) :
    (ask a next).visits s w =
      ⟨a, false, (World.fail { w with trace := a :: w.trace } a events).store⟩ ::
        (next (.error e)).visits s (World.fail { w with trace := a :: w.trace } a events) := by
  simp only [visits, hfault]

theorem visits_ask_of_stops
    (hfault : s.faults a.method (w.uses a.method) = some .panics ∨
      s.faults a.method (w.uses a.method) = some .hangs) :
    (ask a next).visits s w = [⟨a, false, w.store⟩] := by
  rcases hfault with hfault | hfault <;> simp only [visits, hfault]

theorem visits_bind (x : Script α) (f : α → Script β) (w : World) :
    (x.bind f).visits s w = x.visits s w ++ match x.run s w with
      | (.answered a, w') => (f a).visits s w'
      | _ => [] := by
  induction x generalizing w with
  | done a => rfl
  | readClock next ih => exact ih _ _
  | takeId next ih => exact ih _ _
  | report e rest ih => exact ih _
  | ask a next ih =>
    simp only [bind, visits, run]
    cases s.faults a.method (w.uses a.method) with
    | none =>
      cases w.store.perform a with
      | ok answered => exact congrArg (_ :: ·) (ih _ _)
      | error refusal => rfl
    | some fault =>
      cases fault with
      | fails e events => exact congrArg (_ :: ·) (ih _ _)
      | panics => rfl
      | hangs => rfl

end

/-- How a run takes an access: the store answers it, or it fails, and the run goes on with the
answer or the error, or the run ends there without an answer. -/
inductive Asked (s : Surroundings) (a : Access) (next : Except Error a.Answer → Script α)
    (w : World) : Prop where
  | answered (answer : Except Error a.Answer) (store : Store)
      (hfault : s.faults a.method (w.uses a.method) = none)
      (hperform : w.store.perform a = .ok (answer, store))
      (hvisits : (ask a next).visits s w = ⟨a, answer.isOk, store⟩ ::
        (next answer).visits s { w with trace := a :: w.trace, store })
      (hrun : (ask a next).run s w =
        (next answer).run s { w with trace := a :: w.trace, store })
  | failed (e : Error) (w' : World)
      (hvisits : (ask a next).visits s w =
        ⟨a, false, w'.store⟩ :: (next (.error e)).visits s w')
      (hrun : (ask a next).run s w = (next (.error e)).run s w')
  | stopped (o : Outcome α) (hstops : ∀ result, o ≠ .answered result)
      (hwhy : s.faults a.method (w.uses a.method) = some .panics ∨
        s.faults a.method (w.uses a.method) = some .hangs ∨
        ∃ refusal, w.store.perform a = .error refusal)
      (hvisits : (ask a next).visits s w = [⟨a, false, w.store⟩])
      (hrun : (ask a next).run s w = (o, { w with trace := a :: w.trace }))

theorem asked (s : Surroundings) (a : Access) (next : Except Error a.Answer → Script α)
    (w : World) : Asked s a next w := by
  cases hfault : s.faults a.method (w.uses a.method) with
  | none =>
    cases hperform : w.store.perform a with
    | ok answered =>
      obtain ⟨answer, store⟩ := answered
      exact .answered answer store hfault hperform (visits_ask_of_none hfault hperform)
        (run_ask_of_none hfault hperform)
    | error refusal =>
      refine .stopped .pending (fun _ h => by cases h) (.inr (.inr ⟨refusal, hperform⟩)) ?_ ?_
      · simp only [visits, hfault, hperform]
      · simp only [run, hfault, hperform]
  | some fault =>
    cases fault with
    | fails e events =>
      exact .failed e _ (visits_ask_of_fails hfault) (run_ask_of_fails hfault)
    | panics =>
      exact .stopped (.panicked a.method) (fun _ h => by cases h) (.inl hfault)
        (visits_ask_of_stops (.inl hfault)) (run_ask_of_panics hfault)
    | hangs =>
      exact .stopped .pending (fun _ h => by cases h) (.inr (.inl hfault))
        (visits_ask_of_stops (.inr hfault)) (run_ask_of_hangs hfault)

/-! ## The list and the run -/

section

variable (s : Surroundings) (x : Script α) (w : World)

/-- What a run asked of the store is what it is listed to have asked. -/
theorem trace_run : (x.run s w).2.trace = ((x.visits s w).map (·.access)).reverse ++ w.trace := by
  induction x generalizing w with
  | done a => rfl
  | readClock next ih => exact ih _ _
  | takeId next ih => exact ih _ _
  | report e rest ih => exact ih _
  | ask a next ih =>
    simp only [visits, run]
    cases s.faults a.method (w.uses a.method) with
    | none =>
      cases w.store.perform a with
      | ok answered => simp [ih]
      | error refusal => rfl
    | some fault =>
      cases fault with
      | fails e events => simp [ih]
      | panics => rfl
      | hangs => rfl

/-- The store at the end of a run is the one after its last access. -/
theorem store_run : (x.run s w).2.store = storeAfter w.store (x.visits s w) := by
  induction x generalizing w with
  | done a => rfl
  | readClock next ih => exact ih _ _
  | takeId next ih => exact ih _ _
  | report e rest ih => exact ih _
  | ask a next ih =>
    simp only [visits, run]
    cases s.faults a.method (w.uses a.method) with
    | none =>
      cases w.store.perform a with
      | ok answered => exact ih _ _
      | error refusal => rfl
    | some fault =>
      cases fault with
      | fails e events => exact ih _ _
      | panics => rfl
      | hangs => rfl

end

end Script

section

variable (s : Surroundings) (sanitizer : Sanitizer) (ops : List Operation) (w : World)

/-- What was asked of the store in a run is what is listed. -/
theorem trace_performAll :
    (performAll s sanitizer ops w).2.trace =
      ((visitsAll s sanitizer ops w).map (·.access)).reverse ++ w.trace := by
  induction ops generalizing w with
  | nil => rfl
  | cons op rest ih =>
    have hfirst : (op.perform s sanitizer w).2.trace = _ := (op.task sanitizer).run.trace_run s w
    simp only [performAll, visitsAll, ih, hfirst]
    simp [Operation.visits]

/-- No fault strikes a run just if none strikes its first operation and none strikes the others. -/
theorem calm_performAll_cons_iff (op : Operation) :
    s.Calm w.trace (performAll s sanitizer (op :: ops) w).2.trace ↔
      s.Calm w.trace (op.perform s sanitizer w).2.trace ∧
        s.Calm (op.perform s sanitizer w).2.trace
          (performAll s sanitizer ops (op.perform s sanitizer w).2).2.trace :=
  ⟨fun h => ⟨h.init ⟨_, trace_performAll s sanitizer ops _⟩,
    h.tail ⟨_, (op.task sanitizer).run.trace_run s w⟩⟩, fun h => h.1.trans h.2⟩

theorem Store.abandon_abandon (store : Store) : store.abandon.abandon = store.abandon := by
  obtain ⟨t, record⟩ := store
  cases record <;> rfl

theorem abandon_storeAfter (store : Store) (visits : List Visit) :
    (storeAfter store.abandon visits).abandon = (storeAfter store visits).abandon := by
  cases visits with
  | nil => exact store.abandon_abandon
  | cons v rest => rfl

/-- The store after a run is the one after the last access in it, without the transaction that is
open then. -/
theorem store_performAll (h : w.store.abandon = w.store) :
    (performAll s sanitizer ops w).2.store =
      (storeAfter w.store (visitsAll s sanitizer ops w)).abandon := by
  induction ops generalizing w with
  | nil => exact h.symm
  | cons op rest ih =>
    have hfirst : (op.perform s sanitizer w).2.store =
        (storeAfter w.store (op.visits s sanitizer w)).abandon :=
      congrArg Store.abandon ((op.task sanitizer).run.store_run s w)
    have habandon : (op.perform s sanitizer w).2.store.abandon =
        (op.perform s sanitizer w).2.store := by
      rw [hfirst, Store.abandon_abandon]
    simp only [performAll, visitsAll]
    rw [ih _ habandon, hfirst, abandon_storeAfter]
    unfold storeAfter
    rw [List.foldl_append]

end

/-! ## Invariants of scripts -/

/-- Every access of the script leaves tables of which an invariant holds, whatever the clock shows
and whatever identifiers are taken, and a result of the script comes with tables that go with it. -/
def Script.Through (I : Tables → Prop) (Q : α → Tables → Prop) :
    Script (Except Error α) → Tables → Prop
  | .done (.ok a), t => Q a t
  | .done (.error _), _ => True
  | .readClock next, t => ∀ now, (next now).Through I Q t
  | .takeId next, t => ∀ id, (next id).Through I Q t
  | .report _ rest, t => rest.Through I Q t
  | .ask a next, t => I (t.ask a).2 ∧ (next (t.ask a).1).Through I Q (t.ask a).2

def Task.Through (I : Tables → Prop) (Q : α → Tables → Prop) (x : Task α) (t : Tables) : Prop :=
  Script.Through I Q x.run t

namespace Task.Through

variable {I : Tables → Prop} {Q : α → Tables → Prop} {t : Tables}

theorem pure {a : α} (h : Q a t) : Task.Through I Q (pure a : Task α) t :=
  h

theorem ofExcept {result : Except Error α} (h : ∀ a, result = .ok a → Q a t) :
    Task.Through I Q (Task.ofExcept result) t := by
  cases result with
  | ok a => exact h a rfl
  | error e => exact trivial

theorem require {e : Error} {a? : Option α} (h : ∀ a, a? = some a → Q a t) :
    Task.Through I Q (Task.require e a?) t := by
  cases a? with
  | some a => exact h a rfl
  | none => exact trivial

theorem takeId {Q : Uuid → Tables → Prop} (h : ∀ id, Q id t) :
    Task.Through I Q Task.takeId t :=
  h

theorem report {Q : Unit → Tables → Prop} (e : Event) (h : Q () t) :
    Task.Through I Q (Task.report e) t :=
  h

theorem call {c : Call} {Q : c.Answer → Tables → Prop} (hI : I (t.call c).2)
    (h : ∀ a t', t.call c = (.ok a, t') → Q a t') : Task.Through I Q (Task.call c) t := by
  refine ⟨hI, ?_⟩
  change Script.Through I Q (.done (t.call c).1) (t.call c).2
  cases hcall : t.call c with
  | mk result t' =>
    cases result with
    | ok a => exact h a t' hcall
    | error e => exact trivial

theorem bind {x : Task α} {f : α → Task β} {Q : β → Tables → Prop}
    (h : x.Through I (fun a t => (f a).Through I Q t) t) : (x >>= f).Through I Q t := by
  unfold Task.Through at h ⊢
  rw [Task.run_bind]
  generalize x.run = script at h
  induction script generalizing t with
  | done result =>
    cases result with
    | ok a => exact h
    | error e => exact trivial
  | readClock next ih => exact fun now => ih now (h now)
  | takeId next ih => exact fun id => ih id (h id)
  | report e rest ih => exact ih h
  | ask a next ih => exact ⟨h.1, ih _ h.2⟩

theorem map {x : Task α} (f : α → β) {Q : β → Tables → Prop}
    (h : x.Through I (fun a t => Q (f a) t) t) : (f <$> x).Through I Q t := by
  rw [map_eq_pure_bind]
  exact bind h

/-- What every access of some kind keeps holds all through a script of that kind. -/
theorem of_only {ok : Access → Prop} {x : Task α} (hx : x.Only ok)
    (hok : ∀ a t, ok a → I t → I (Tables.ask t a).2) (hI : I t) :
    x.Through I (fun _ _ => True) t := by
  unfold Task.Only at hx
  unfold Task.Through
  generalize x.run = script at hx
  induction script generalizing t with
  | done result => cases result <;> exact trivial
  | readClock next ih => exact absurd hx id
  | takeId next ih => exact fun id => ih id hI (hx id)
  | report e rest ih => exact ih hI hx
  | ask a next ih =>
    have hI' := hok a t hx.1 hI
    exact ⟨hI', ih _ hI' (Script.Only.next hx _)⟩

end Task.Through

/-! ## Runs -/

section

variable {s : Surroundings} {I : Tables → Prop} {Q : α → Tables → Prop} {w : World} {t : Tables}

/-- In a store that stands for the tables, an invariant of a script holds of them after every access
of a run, wherever a fault strikes. -/
theorem Script.visits_only {ok : Access → Prop} {stands : Store → Tables → Prop}
    (hanswering : Answering ok stands) {x : Script (Except Error α)} (hx : x.Only ok)
    (hthrough : x.Through I Q t) (hI : I t) (hstore : stands w.store t) :
    ∀ v ∈ x.visits s w, ok v.access ∧ ∃ t', stands v.store t' ∧ I t' := by
  induction x generalizing w t with
  | done a =>
    intro v hv
    cases hv
  | readClock next ih => exact absurd hx id
  | takeId next ih => exact ih _ (hx _) (hthrough _) hI hstore
  | report e rest ih => exact ih hx hthrough hI hstore
  | ask a next ih =>
    obtain ⟨hok, herror, hnext⟩ := hx
    have hstays := hanswering.stays hok
    cases hfault : s.faults a.method (w.uses a.method) with
    | none =>
      obtain ⟨store', hperform, hstands⟩ := hanswering.answers hok hstore
      rw [visits_ask_of_none hfault hperform, List.forall_mem_cons]
      exact ⟨⟨hok, _, hstands, hthrough.1⟩,
        ih _ (Only.next ⟨hok, herror, hnext⟩ _) hthrough.2 hthrough.1 hstands⟩
    | some fault =>
      cases fault with
      | fails e events =>
        have hkept := (fail_store (w := { w with trace := a :: w.trace }) hstays events).1
        rw [visits_ask_of_fails hfault, herror, List.forall_mem_cons]
        exact ⟨⟨hok, t, by rw [hkept]; exact hstore, hI⟩, by simp [visits]⟩
      | panics =>
        rw [visits_ask_of_stops (.inl hfault), List.forall_mem_singleton]
        exact ⟨hok, t, hstore, hI⟩
      | hangs =>
        rw [visits_ask_of_stops (.inr hfault), List.forall_mem_singleton]
        exact ⟨hok, t, hstore, hI⟩

/-- The invariant holds at the end of the run, too. -/
theorem Script.run_only_through {ok : Access → Prop} {stands : Store → Tables → Prop}
    (hanswering : Answering ok stands) {x : Script (Except Error α)} (hx : x.Only ok)
    (hthrough : x.Through I Q t) (hI : I t) (hstore : stands w.store t) :
    ∃ t', stands (x.run s w).2.store t' ∧ I t' := by
  rw [x.store_run s w]
  rcases storeAfter_cases w.store (x.visits s w) with heq | ⟨v, hv, heq⟩
  · exact heq.symm ▸ ⟨t, hstore, hI⟩
  · exact heq ▸ (visits_only hanswering hx hthrough hI hstore v hv).2

variable {start : Tables}

theorem Store.Working.tables {store : Store} (h : Store.Working start store t) :
    store.tables = t := by
  obtain ⟨record, rfl, -⟩ := h
  rfl

/-- A commit or a rollback is the last access of a transaction. It leaves what it should leave, or
what there was at the start of the transaction, or, when it stops there and then, what had been
written. -/
theorem visits_end {a : Access} (ha : a = .commit ∨ a = .rollback)
    {next : Except Error a.Answer → Script (Except Error α)} {u : a.Answer} {store' : Store}
    (hstore : Store.Working start w.store t) (hperform : w.store.perform a = .ok (.ok u, store'))
    (hnext : ∀ answer w, (next answer).visits s w = []) (hI : I t) (hstart : I start)
    (hleft : I store'.tables) :
    ∀ v ∈ (Script.ask a next).visits s w, v.access = a ∧ I v.store.tables ∧
      (v.done = true → v.store = store') ∧
      storeAfter w.store ((Script.ask a next).visits s w) = v.store := by
  have hopen : I w.store.tables := hstore.tables.symm ▸ hI
  have hundone : w.store.abandon.tables = start := congrArg Store.tables hstore.abandon
  cases hfault : s.faults a.method (w.uses a.method) with
  | none =>
    rw [Script.visits_ask_of_none hfault hperform, hnext, List.forall_mem_singleton]
    exact ⟨rfl, hleft, fun _ => rfl, rfl⟩
  | some fault =>
    cases fault with
    | fails e events =>
      rw [Script.visits_ask_of_fails hfault, hnext, List.forall_mem_singleton]
      refine ⟨rfl, ?_, nofun, rfl⟩
      rcases ha with rfl | rfl <;> exact hundone.symm ▸ hstart
    | panics =>
      rw [Script.visits_ask_of_stops (.inl hfault), List.forall_mem_singleton]
      exact ⟨rfl, hopen, nofun, rfl⟩
    | hangs =>
      rw [Script.visits_ask_of_stops (.inr hfault), List.forall_mem_singleton]
      exact ⟨rfl, hopen, nofun, rfl⟩

/-- If this is a commit that was carried out, the store that it left is the one given, and it is
free. -/
def Visit.Lasts (v : Visit) (store : Store) : Prop :=
  v.access = .commit → v.done = true → v.store = store ∧ store.isLocked = false

theorem visits_finish (hstore : Store.Working start w.store t) (result : Except Error α)
    (hI : I t) (hstart : I start) :
    ∀ v ∈ (Task.finish result).run.visits s w, I v.store.tables ∧
      v.Lasts ((Task.finish result).run.run s w).2.store := by
  rw [(Task.finish result).run.store_run s w]
  obtain ⟨record, hopen, hundone⟩ := id hstore
  cases result with
  | ok a =>
    have hcommit : w.store.perform .commit = .ok (.ok (), ⟨t, none⟩) := by rw [hopen]; rfl
    rw [Task.run_finish_ok]
    intro v hv
    obtain ⟨-, htables, hleft, hlast⟩ := visits_end (.inl rfl) hstore hcommit
      (fun answer w => by cases answer <;> rfl) hI hstart hI v hv
    exact ⟨htables, fun _ hdone => ⟨hlast.symm, hlast ▸ congrArg Store.isLocked (hleft hdone)⟩⟩
  | error e =>
    have hrollback : w.store.perform .rollback = .ok (.ok (), ⟨start, none⟩) := by
      rw [hopen, ← hundone]
      rfl
    rw [Task.run_finish_error]
    intro v hv
    obtain ⟨haccess, htables, -, -⟩ := visits_end (.inr rfl) hstore hrollback
      (fun answer w => by cases answer <;> rfl) hI hstart hstart v hv
    refine ⟨htables, fun hcommit => ?_⟩
    rw [haccess] at hcommit
    cases hcommit

theorem Visit.lasts_of_ne {v : Visit} (h : v.access ≠ .commit) (store : Store) : v.Lasts store :=
  fun haccess => absurd haccess h

/-- **Transactions.** If an invariant holds after every access of the body of a transaction that
begins in tables of which it holds, it holds after every access of the transaction. -/
theorem visits_transact {body : Task α} (hbody : body.Only Access.IsCall)
    (hthrough : body.Through I Q t) (hfree : w.store.Free t) (hI : I t) :
    ∀ v ∈ (Task.transact body).run.visits s w, I v.store.tables ∧
      v.Lasts ((Task.transact body).run.run s w).2.store := by
  have htables : I w.store.tables := by rw [hfree]; exact hI
  have hlasts : ∀ done store store', Visit.Lasts ⟨.begin, done, store⟩ store' := fun _ _ _ =>
    Visit.lasts_of_ne (by simp) _
  rw [Task.run_transact]
  cases hfault : s.faults Access.begin.method (w.uses Access.begin.method) with
  | some fault =>
    cases fault with
    | fails e events =>
      rw [Script.visits_ask_of_fails hfault, List.forall_mem_cons]
      exact ⟨⟨htables, hlasts _ _ _⟩, List.forall_mem_nil _⟩
    | panics =>
      rw [Script.visits_ask_of_stops (.inl hfault), List.forall_mem_singleton]
      exact ⟨htables, hlasts _ _ _⟩
    | hangs =>
      rw [Script.visits_ask_of_stops (.inr hfault), List.forall_mem_singleton]
      exact ⟨htables, hlasts _ _ _⟩
  | none =>
    have hbegin : w.store.perform .begin = .ok (.ok (), ⟨t, some []⟩) := by rw [hfree]; rfl
    rw [Script.visits_ask_of_none hfault hbegin, Script.run_ask_of_none hfault hbegin,
      List.forall_mem_cons]
    refine ⟨⟨hI, hlasts _ _ _⟩, ?_⟩
    generalize hbegun : { w with trace := .begin :: w.trace, store := ⟨t, some []⟩ } = w₀
    have hworking : Store.Working t w₀.store t := hbegun ▸ Store.Working.begin t
    have hvisits := Script.visits_only (s := s) (answering_working t) hbody hthrough hI hworking
    obtain ⟨t₁, hworking₁, hI₁⟩ :=
      Script.run_only_through (s := s) (answering_working t) hbody hthrough hI hworking
    have hinside : ∀ store, ∀ v ∈ body.run.visits s w₀, I v.store.tables ∧ v.Lasts store := by
      intro store v hv
      obtain ⟨⟨c, hcall⟩, t', hworking', hI'⟩ := hvisits v hv
      exact ⟨hworking'.tables.symm ▸ hI', Visit.lasts_of_ne (by simp [hcall]) store⟩
    dsimp only
    rw [Script.visits_bind, Script.run_bind]
    generalize body.run.run s w₀ = ran at hworking₁ ⊢
    obtain ⟨result | m | _, w₁⟩ := ran
    · refine List.forall_mem_append.mpr ⟨hinside _, ?_⟩
      exact visits_finish hworking₁ result hI₁ hI
    · exact List.forall_mem_append.mpr ⟨hinside _, List.forall_mem_nil _⟩
    · exact List.forall_mem_append.mpr ⟨hinside _, List.forall_mem_nil _⟩

end

/-! ## Operations -/

/-- An invariant holds after every access of a transaction that a plan asks for. -/
def Plan.Through (I : Tables → Prop) (t : Tables) : Plan → Prop
  | .refuse _ => True
  | .look _ => True
  | .change body => ∀ now, (body now).Through I (fun _ _ => True) t

/-- A change accesses the store in its transaction only. -/
theorem Plan.visits_change (s : Surroundings) (body : Instant → Task Settled) (w : World) :
    (Plan.change body).task.run.visits s w =
      (Task.transact (body (s.clock w.clockReads))).run.visits s
        { w with clockReads := w.clockReads + 1 } := by
  change Script.visits s (Task.transact (body (s.clock w.clockReads)) >>= _).run _ = _
  rw [Task.run_bind, Script.visits_bind]
  refine (congrArg (_ ++ ·) ?_).trans (List.append_nil _)
  rcases (Task.transact (body (s.clock w.clockReads))).run.run s
    { w with clockReads := w.clockReads + 1 } with ⟨result | m | _, w'⟩
  · cases result with
    | error e => rfl
    | ok settled =>
      obtain ⟨reply, _ | e⟩ := settled <;> rfl
  · rfl
  · rfl

section

variable {s : Surroundings} {I : Tables → Prop} {w : World} {t : Tables}

theorem Visit.Lasts.abandon {v : Visit} {store : Store} (h : v.Lasts store) :
    v.Lasts store.abandon := by
  intro haccess hdone
  obtain ⟨hstore, hfree⟩ := h haccess hdone
  obtain ⟨t, _ | record⟩ := store
  · exact ⟨hstore, rfl⟩
  · cases hfree

/-- **Operations.** An invariant that holds when an operation begins, and all through the
transaction that it asks for, holds after each of its accesses. -/
theorem Operation.visits_through (sanitizer : Sanitizer) (op : Operation)
    (hthrough : (op.plan sanitizer).Through I t) (hfree : w.store.Free t) (hI : I t) :
    ∀ v ∈ op.visits s sanitizer w, I v.store.tables ∧
      v.Lasts (op.perform s sanitizer w).2.store := by
  suffices h : ∀ v ∈ (op.task sanitizer).run.visits s w, I v.store.tables ∧
      v.Lasts ((op.task sanitizer).run.run s w).2.store from
    fun v hv => (h v hv).imp_right Visit.Lasts.abandon
  rw [op.task_eq_plan]
  have hsound := op.plan_sound sanitizer
  generalize op.plan sanitizer = plan at hsound hthrough
  cases plan with
  | refuse e => exact List.forall_mem_nil _
  | look task =>
    have hlooks : task.Through I (fun _ _ => True) t :=
      .of_only hsound (fun a t ha hI => (ha.keeps t).symm ▸ hI) hI
    intro v hv
    obtain ⟨⟨q, hquery⟩, t', ⟨rfl, hstore⟩, hI'⟩ :=
      Script.visits_only (answering_idle t) hsound hlooks hI ⟨rfl, hfree⟩ v hv
    refine ⟨?_, Visit.lasts_of_ne (by simp [hquery]) _⟩
    rw [hstore]
    exact hI'
  | change body =>
    rw [Plan.visits_change, Plan.run_change, (Plan.settle_keeps _).1]
    exact visits_transact (hsound _) (hthrough _) hfree hI

end

/-! ## What is granted -/

/-- The store grants a script all that it asks for, whatever the clock shows and whatever
identifiers are taken. -/
def Script.Granted : Script α → Store → Prop
  | .done _, _ => True
  | .readClock next, store => ∀ now, (next now).Granted store
  | .takeId next, store => ∀ id, (next id).Granted store
  | .report _ rest, store => rest.Granted store
  | .ask a next, store => ∃ answer store',
      store.perform a = .ok (.ok answer, store') ∧ (next (.ok answer)).Granted store'

namespace Script

/-- Without faults, every access of a script that is granted all is carried out and answered. -/
theorem visits_of_granted {s : Surroundings} {x : Script α} {w : World}
    (hgranted : x.Granted w.store) (hcalm : s.Calm w.trace (x.run s w).2.trace) :
    ∀ v ∈ x.visits s w, v.done = true := by
  induction x generalizing w with
  | done a => exact List.forall_mem_nil _
  | readClock next ih => exact ih _ (hgranted _) hcalm
  | takeId next ih => exact ih _ (hgranted _) hcalm
  | report e rest ih => exact ih hgranted hcalm
  | ask a next ih =>
    obtain ⟨answer, store', hperform, hnext⟩ := hgranted
    have hasked : ∃ asked, ((ask a next).run s w).2.trace = asked ++ a :: w.trace := by
      rw [trace_run, visits]
      cases s.faults a.method (w.uses a.method) with
      | none => simp [hperform]
      | some fault => cases fault <;> simp
    obtain ⟨hfault, hcalm'⟩ := (Surroundings.calm_cons_iff hasked).mp hcalm
    rw [run_ask_of_none hfault hperform] at hcalm'
    rw [visits_ask_of_none hfault hperform, List.forall_mem_cons]
    exact ⟨rfl, ih _ hnext hcalm'⟩

variable {x : Script α} {store : Store}

/-- What is granted all in every store may follow. -/
theorem Granted.bind {f : α → Script β} (hx : x.Granted store)
    (hf : ∀ a store', (f a).Granted store') : (x.bind f).Granted store := by
  induction x generalizing store with
  | done a => exact hf a store
  | readClock next ih => exact fun now => ih now (hx now)
  | takeId next ih => exact fun id => ih id (hx id)
  | report e rest ih => exact ih hx
  | ask a next ih =>
    obtain ⟨answer, store', hperform, hnext⟩ := hx
    exact ⟨answer, store', hperform, ih _ hnext⟩

theorem Granted.map {x : Task α} (f : α → β) (hx : x.run.Granted store) :
    (f <$> x).run.Granted store := by
  rw [Task.run_map]
  exact hx.bind fun _ _ => trivial

/-- What is granted all in an open transaction may follow calls in it. -/
theorem Granted.bind_of_calls {x : Script (Except Error α)} {f : Except Error α → Script β}
    {start t : Tables} (hx : x.Granted store) (hcalls : x.Only Access.IsCall)
    (hstore : Store.Working start store t)
    (hf : ∀ result store' t', Store.Working start store' t' → (f result).Granted store') :
    (x.bind f).Granted store := by
  induction x generalizing store t with
  | done result => exact hf result store t hstore
  | readClock next ih => exact absurd hcalls id
  | takeId next ih => exact fun id => ih id (hx id) (hcalls id) hstore
  | report e rest ih => exact ih hx hcalls hstore
  | ask a next ih =>
    obtain ⟨answer, store', hperform, hnext⟩ := hx
    obtain ⟨store'', hperform', hworking⟩ := (answering_working start).answers hcalls.1 hstore
    obtain ⟨-, rfl⟩ := Prod.mk.inj (Except.ok.inj (hperform.symm.trans hperform'))
    exact ⟨answer, store', hperform, ih _ hnext (hcalls.next _) hworking⟩

end Script

section

variable {start t : Tables} {store : Store}

/-- An open transaction carries out a call that is answered without an error. -/
theorem Store.perform_call_of_ok {record : List Undo} {c : Call} {a : c.Answer}
    (h : (t.call c).1 = .ok a) :
    ∃ store', Store.perform ⟨t, some record⟩ (.call c) = .ok (.ok a, store') := by
  have hanswer : (Transaction.perform ⟨t, record⟩ c).1 = .ok a :=
    (Transaction.perform_eq ⟨t, record⟩ c).1.trans h
  exact ⟨_, congrArg (fun answer => Except.ok (answer, _)) hanswer⟩

theorem granted_finish (hstore : Store.Working start store t) (result : Except Error α) :
    (Task.finish result).run.Granted store := by
  obtain ⟨record, rfl, -⟩ := hstore
  cases result with
  | ok a => exact ⟨(), ⟨t, none⟩, rfl, trivial⟩
  | error e => exact ⟨(), Store.abandon ⟨t, some record⟩, rfl, trivial⟩

/-- A transaction is granted all if its body is. -/
theorem granted_transact {body : Task α} (hbody : body.Only Access.IsCall)
    (hgranted : body.run.Granted ⟨t, some []⟩) : (Task.transact body).run.Granted ⟨t, none⟩ := by
  rw [Task.run_transact]
  refine ⟨(), ⟨t, some []⟩, rfl, ?_⟩
  exact hgranted.bind_of_calls hbody (Store.Working.begin t) fun result _ _ hworking =>
    granted_finish hworking result

/-- A change is granted all if its body is, whatever the clock shows. -/
theorem Plan.granted_change {body : Instant → Task Settled} (hsound : (Plan.change body).Sound)
    (hgranted : ∀ now, (body now).run.Granted ⟨t, some []⟩) :
    (Plan.change body).task.run.Granted ⟨t, none⟩ := by
  intro now
  change Script.Granted (Task.transact (body now) >>= _).run _
  rw [Task.run_bind]
  refine (granted_transact (hsound now) (hgranted now)).bind fun result store' => ?_
  cases result with
  | error e => exact trivial
  | ok settled =>
    obtain ⟨reply, _ | e⟩ := settled <;> exact trivial

/-- Without faults, every access of an operation whose plan is granted all is carried out. -/
theorem Operation.visits_of_granted {s : Surroundings} {sanitizer : Sanitizer} {op : Operation}
    {w : World} (hfree : w.store.Free t) (hgranted : (op.plan sanitizer).task.run.Granted ⟨t, none⟩)
    (hcalm : s.Calm w.trace (op.perform s sanitizer w).2.trace) :
    ∀ v ∈ op.visits s sanitizer w, v.done = true := by
  rw [← op.task_eq_plan] at hgranted
  exact Script.visits_of_granted (hfree ▸ hgranted) hcalm

end

end Weblog
