import Weblog.Proofs.Atomicity
import Weblog.Proofs.Traffic.Machine

/-!
# What a request does with the store

A request that was stopped somewhere can be told by what is left of its script. `Script.Reaches` says
that a script comes from another one when it takes certain readings and identifiers, and that the
store then is another: to run either of them is the same. `Script.Orderly` says what a script may
still do. A change reads the clock, obtains the store, makes calls and ends its transaction, in this
order (`Operation.orderly_of_mutation`); what only looks makes queries (`Operation.orderly_of_look`).
-/

namespace Weblog

/-! ## Parts of runs -/

section

variable {α : Type} {source : Nat → α} {start : Nat}

theorem Serves.left {given later : List α} (h : Serves source start (given ++ later)) :
    Serves source start given := by
  intro n a hn
  have hlt := (List.getElem?_eq_some_iff.mp hn).1
  apply h n a
  rw [List.getElem?_append_left hlt]
  exact hn

theorem Serves.right {given later : List α} (h : Serves source start (given ++ later)) :
    Serves source (start + given.length) later := by
  intro n a hn
  rw [Nat.add_assoc]
  apply h (given.length + n) a
  rw [List.getElem?_append_right (Nat.le_add_right _ _), Nat.add_sub_cancel_left]
  exact hn

end

namespace Script

variable {α : Type} {x y z : Script α} {store store' store'' : Store}

/-- A script becomes another one, and one store another store, by steps that no fault strikes and
that take these readings and identifiers. -/
def Reaches (times : List Instant) (ids : List Uuid) (x : Script α) (store : Store) (y : Script α)
    (store' : Store) : Prop :=
  ∀ (s : Surroundings) (w : World), (∀ m n, s.faults m n = none) → w.store = store →
    Serves s.clock w.clockReads times → Serves s.ids w.idsUsed ids →
    ∃ w', x.run s w = y.run s w' ∧ w'.store = store' ∧
      w'.clockReads = w.clockReads + times.length ∧ w'.idsUsed = w.idsUsed + ids.length

theorem Reaches.refl (x : Script α) (store : Store) : Reaches [] [] x store x store := by
  intro s w _ hstore _ _
  exact ⟨w, rfl, hstore, rfl, rfl⟩

theorem Reaches.trans {times times' : List Instant} {ids ids' : List Uuid}
    (h : Reaches times ids x store y store') (h' : Reaches times' ids' y store' z store'') :
    Reaches (times ++ times') (ids ++ ids') x store z store'' := by
  intro s w hcalm hstore htimes hids
  obtain ⟨w₁, hrun₁, hstore₁, hclock₁, hids₁⟩ := h s w hcalm hstore htimes.left hids.left
  have htimes₁ : Serves s.clock w₁.clockReads times' := hclock₁ ▸ htimes.right
  have hids₁' : Serves s.ids w₁.idsUsed ids' := hids₁ ▸ hids.right
  obtain ⟨w₂, hrun₂, hstore₂, hclock₂, hids₂⟩ := h' s w₁ hcalm hstore₁ htimes₁ hids₁'
  refine ⟨w₂, hrun₁.trans hrun₂, hstore₂, ?_, ?_⟩
  · rw [hclock₂, hclock₁, List.length_append, Nat.add_assoc]
  · rw [hids₂, hids₁, List.length_append, Nat.add_assoc]

theorem reaches_reported (x : Script α) (store : Store) :
    Reaches [] [] x store x.reported store := by
  induction x with
  | report e rest ih =>
    intro s w hcalm hstore htimes hids
    exact ih s { w with events := e :: w.events } hcalm hstore htimes hids
  | done a => exact .refl _ _
  | readClock next ih => exact .refl _ _
  | takeId next ih => exact .refl _ _
  | ask a next ih => exact .refl _ _

section

variable {times : List Instant} {ids : List Uuid}

/-- The next step of a script is one more step. -/
theorem Reaches.readClock {next : Instant → Script α}
    (h : Reaches times ids x store (.readClock next) store') (now : Instant) :
    Reaches (times ++ [now]) ids x store (next now).reported store' := by
  have hstep : Reaches [now] [] (.readClock next) store' (next now).reported store' := by
    intro s w hcalm hstore htimes hids
    have hnow : s.clock w.clockReads = now := htimes 0 now rfl
    have hrest := reaches_reported (next now) store' s { w with clockReads := w.clockReads + 1 }
      hcalm hstore (fun n a hn => by cases hn) (fun n a hn => by cases hn)
    rw [run, hnow]
    exact hrest
  have hboth := h.trans hstep
  rwa [List.append_nil] at hboth

theorem Reaches.report {e : Event} {rest : Script α}
    (h : Reaches times ids x store (.report e rest) store') :
    Reaches times ids x store rest.reported store' := by
  have hboth := h.trans (reaches_reported (.report e rest) store')
  rwa [List.append_nil, List.append_nil] at hboth

theorem Reaches.takeId {next : Uuid → Script α}
    (h : Reaches times ids x store (.takeId next) store') (id : Uuid) :
    Reaches times (ids ++ [id]) x store (next id).reported store' := by
  have hstep : Reaches [] [id] (.takeId next) store' (next id).reported store' := by
    intro s w hcalm hstore htimes hids
    have hid : s.ids w.idsUsed = id := hids 0 id rfl
    have hrest := reaches_reported (next id) store' s { w with idsUsed := w.idsUsed + 1 }
      hcalm hstore (fun n a hn => by cases hn) (fun n a hn => by cases hn)
    rw [run, hid]
    exact hrest
  have hboth := h.trans hstep
  rwa [List.append_nil] at hboth

theorem Reaches.ask {a : Access} {next : Except Error a.Answer → Script α}
    (h : Reaches times ids x store (.ask a next) store') {answer : Except Error a.Answer}
    (hperform : store'.perform a = .ok (answer, store'')) :
    Reaches times ids x store (next answer).reported store'' := by
  have hstep : Reaches [] [] (.ask a next) store' (next answer).reported store'' := by
    intro s w hcalm hstore htimes hids
    have hasked : w.store.perform a = .ok (answer, store'') := hstore ▸ hperform
    have hrest := reaches_reported (next answer) store'' s
      { w with trace := a :: w.trace, store := store'' } hcalm rfl htimes hids
    rw [run_ask_of_none (hcalm _ _) hasked]
    exact hrest
  have hboth := h.trans hstep
  rwa [List.append_nil, List.append_nil] at hboth

end

end Script

/-! ## Order -/

/-- How far a request has come: it has not obtained the store, it holds it, it has given it back, or
it never wants it for itself. -/
inductive Stage where
  | before
  | inside
  | after
  | looking

/-- What a script may still do from a stage on. -/
def Script.Orderly : Stage → Script (Except Error Reply) → Prop
  | .before, .done answer => ∃ e, answer = .error e
  | .before, .readClock next => ∀ now, (next now).Orderly .before
  | .before, .ask .begin next => (next (.ok ())).Orderly .inside
  | .inside, .takeId next => ∀ id, (next id).Orderly .inside
  | .inside, .report _ rest => rest.Orderly .inside
  | .inside, .ask (.call _) next => ∀ answer, (next answer).Orderly .inside
  | .inside, .ask .commit next => (next (.ok ())).Orderly .after
  | .inside, .ask .rollback next => (next (.ok ())).Orderly .after
  | .after, .done _ => True
  | .after, .report _ rest => rest.Orderly .after
  | .looking, .done _ => True
  | .looking, .takeId next => ∀ id, (next id).Orderly .looking
  | .looking, .report _ rest => rest.Orderly .looking
  | .looking, .ask (.query _) next => ∀ answer, (next answer).Orderly .looking
  | _, _ => False

namespace Script

theorem Orderly.reported {stage : Stage} {x : Script (Except Error Reply)} (h : x.Orderly stage) :
    x.reported.Orderly stage := by
  induction x with
  | report e rest ih =>
    cases stage with
    | before => exact h.elim
    | inside | after | looking => exact ih h
  | done a => exact h
  | readClock next ih => exact h
  | takeId next ih => exact h
  | ask a next ih => exact h

/-- A request that has given the store back is answered at once. -/
theorem Orderly.done {x : Script (Except Error Reply)} (h : x.Orderly .after) :
    ∃ answer, x.reported = .done answer := by
  induction x with
  | done answer => exact ⟨answer, rfl⟩
  | report e rest ih => exact ih h
  | readClock next ih => exact h.elim
  | takeId next ih => exact h.elim
  | ask a next ih => cases a <;> exact h.elim

theorem Only.looking {x : Script (Except Error Reply)} (h : x.Only Access.IsQuery) :
    x.Orderly .looking := by
  induction x with
  | done answer => exact trivial
  | readClock next ih => exact h.elim
  | takeId next ih => exact fun id => ih id (h id)
  | report e rest ih => exact ih h
  | ask a next ih =>
    obtain ⟨⟨q, rfl⟩, -, -⟩ := id h
    exact fun answer => ih answer (h.next answer)

variable {α : Type}

/-- After calls comes what is done with their result. -/
theorem Only.inside {x : Script (Except Error α)} (h : x.Only Access.IsCall)
    {f : Except Error α → Script (Except Error Reply)} (hf : ∀ result, (f result).Orderly .inside) :
    (x.bind f).Orderly .inside := by
  induction x with
  | done result => exact hf result
  | readClock next ih => exact h.elim
  | takeId next ih => exact fun id => ih id (h id)
  | report e rest ih => exact ih h
  | ask a next ih =>
    obtain ⟨⟨c, rfl⟩, -, -⟩ := id h
    exact fun answer => ih answer (h.next answer)

/-- The end of a transaction gives the store back. -/
theorem orderly_finish (result : Except Error α) {f : Except Error α → Script (Except Error Reply)}
    (hf : ∀ result, (f result).Orderly .after) :
    ((Task.finish result).run.bind f).Orderly .inside := by
  cases result with
  | ok a =>
    rw [Task.run_finish_ok]
    exact hf (.ok a)
  | error e =>
    rw [Task.run_finish_error]
    exact hf (.error e)

end Script

/-- A change takes its steps in order. -/
theorem Plan.orderly_change {body : Instant → Task Settled}
    (hbody : ∀ now, (body now).Only Access.IsCall) :
    (Plan.change body).task.run.Orderly .before := by
  intro now
  change (Script.bind (Task.transact (body now)).run _).Orderly .before
  rw [Task.run_transact]
  change (Script.bind (Script.bind (body now).run fun result => (Task.finish result).run) _).Orderly
    .inside
  rw [Script.bind_assoc]
  refine (hbody now).inside fun result => Script.orderly_finish result fun result => ?_
  cases result with
  | error e => exact trivial
  | ok settled =>
    obtain ⟨reply, _ | e⟩ := settled <;> exact trivial

namespace Operation

variable (sanitizer : Sanitizer) {op : Operation}

theorem orderly_of_mutation (h : op.isMutation = true) :
    (op.task sanitizer).run.Orderly .before := by
  have hsound := op.plan_sound sanitizer
  rw [op.task_eq_plan]
  rcases op.plan_of_mutation sanitizer h with ⟨e, hplan⟩ | ⟨body, hplan⟩
  · rw [hplan]
    exact ⟨e, rfl⟩
  · rw [hplan] at hsound ⊢
    exact Plan.orderly_change hsound

theorem orderly_of_look (h : op.isMutation = false) : (op.task sanitizer).run.Orderly .looking := by
  cases op with
  | getPost id => exact Script.Only.looking (Task.Only.map _ (Posts.only_get id))
  | getVersion id => exact Script.Only.looking (Task.Only.map _ (Posts.only_getVersion id))
  | getCategory id => exact Script.Only.looking (Task.Only.map _ (Categories.only_get id))
  | createPost _ | updatePost _ _ | publishPost _ | deleteDraft _ | createCategory _
  | updateCategory _ _ | attach _ => cases h

end Operation

end Weblog
