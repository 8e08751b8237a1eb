import Weblog.Proofs.Atomicity
import Weblog.Proofs.Locking

/-!
# The discipline of transactions

What an operation asks of the store, in whatever store it runs and wherever faults strike.

* `Plan.Disciplined`: nothing if it is refused, queries if it only looks, and else one transaction,
  which is begun, worked in and ended once, with a commit or with a rollback as its body asks for.
* `transaction_discipline`: every run of every operation keeps to this, and whatever it reads and
  writes it has locked before in the same transaction.
-/

namespace Weblog

variable {α : Type}

/-! ## Scripts of one kind -/

section

variable {s : Surroundings} {ok : Access → Prop} {x : Script (Except Error α)} {w : World}

/-- A script of some kind makes no other accesses, in whatever store it runs. -/
theorem Script.visits_of_only (hx : x.Only ok) : ∀ v ∈ x.visits s w, ok v.access := by
  induction x generalizing w with
  | done a => exact List.forall_mem_nil _
  | readClock next ih => exact absurd hx id
  | takeId next ih => exact ih _ (hx _)
  | report e rest ih => exact ih hx
  | ask a next ih =>
    cases asked s a next w with
    | answered answer store hfault hperform hvisits hrun =>
      rw [hvisits, List.forall_mem_cons]
      exact ⟨hx.1, ih _ (hx.next answer)⟩
    | failed e w' hvisits hrun =>
      rw [hvisits, List.forall_mem_cons]
      exact ⟨hx.1, ih _ (hx.next (.error e))⟩
    | stopped o hstops hwhy hvisits hrun =>
      rw [hvisits, List.forall_mem_singleton]
      exact hx.1

theorem Script.trace_of_only (hx : x.Only ok) :
    ∃ asked, (∀ a ∈ asked, ok a) ∧ (x.run s w).2.trace = asked ++ w.trace := by
  refine ⟨_, fun a ha => ?_, x.trace_run s w⟩
  obtain ⟨v, hv, rfl⟩ := List.mem_map.mp (List.mem_reverse.mp ha)
  exact visits_of_only hx v hv

/-- Whoever succeeds was answered without an error every time. -/
theorem Script.done_of_ok (hx : x.Only ok) {a : α} (hok : (x.run s w).1 = .answered (.ok a)) :
    ∀ v ∈ x.visits s w, v.done = true := by
  induction x generalizing w with
  | done a => exact List.forall_mem_nil _
  | readClock next ih => exact absurd hx id
  | takeId next ih => exact ih _ (hx _) hok
  | report e rest ih => exact ih hx hok
  | ask a next ih =>
    obtain ⟨-, herror, hnext⟩ := id hx
    cases asked s a next w with
    | answered answer store hfault hperform hvisits hrun =>
      rw [hrun] at hok
      rw [hvisits, List.forall_mem_cons]
      cases answer with
      | ok answer => exact ⟨rfl, ih _ (hnext answer) hok⟩
      | error e =>
        rw [herror] at hok
        cases hok
    | failed e w' hvisits hrun =>
      rw [hrun, herror] at hok
      cases hok
    | stopped o hstops hwhy hvisits hrun =>
      rw [hrun] at hok
      exact absurd hok (hstops _)

end

/-- The last access panicked or hung. -/
def Surroundings.Stopped (s : Surroundings) (trace : List Access) : Prop :=
  ∃ a before, trace = a :: before ∧
    (s.faults a.method (before.countP (·.method = a.method)) = some .panics ∨
      s.faults a.method (before.countP (·.method = a.method)) = some .hangs)

/-- In a store that answers it, a script comes to an end, or its last access panicked or hung. -/
theorem Script.answered_or_stopped {s : Surroundings} {ok : Access → Prop}
    {stands : Store → Tables → Prop} (hanswering : Answering ok stands)
    {x : Script (Except Error α)} (hx : x.Only ok) {w : World} {t : Tables}
    (hstore : stands w.store t) :
    (∃ result, (x.run s w).1 = .answered result) ∨ s.Stopped (x.run s w).2.trace := by
  induction x generalizing w t with
  | done a => exact .inl ⟨a, rfl⟩
  | readClock next ih => exact absurd hx id
  | takeId next ih => exact ih _ (hx _) hstore
  | report e rest ih => exact ih hx hstore
  | ask a next ih =>
    obtain ⟨hok, herror, -⟩ := id hx
    obtain ⟨store', hgranted, hstands⟩ := hanswering.answers hok hstore
    cases asked s a next w with
    | answered answer store hfault hperform hvisits hrun =>
      obtain ⟨rfl, rfl⟩ := Prod.mk.inj (Except.ok.inj (hgranted.symm.trans hperform))
      rw [hrun]
      exact ih _ (hx.next _) hstands
    | failed e w' hvisits hrun =>
      rw [hrun, herror]
      exact .inl ⟨_, rfl⟩
    | stopped o hstops hwhy hvisits hrun =>
      rw [hrun]
      refine .inr ⟨a, w.trace, rfl, ?_⟩
      rcases hwhy with hpanics | hhangs | ⟨refusal, hrefused⟩
      · exact .inl hpanics
      · exact .inr hhangs
      · rw [hgranted] at hrefused
        cases hrefused

/-! ## Transactions -/

/-- How a transaction is ended after a run of its body, which has to come to an end itself. -/
def Outcome.ending? : Outcome (Except Error α) → Option Access
  | answered result => some (.ending result)
  | panicked _ | pending => none

section

variable {s : Surroundings} {w : World}

/-- After the last access nothing is asked any more. -/
theorem Script.trace_ask_last {a : Access} {next : Except Error a.Answer → Script α}
    (hlast : ∀ answer w, (next answer).visits s w = []) :
    ((Script.ask a next).run s w).2.trace = a :: w.trace := by
  rw [trace_run]
  cases asked s a next w with
  | answered answer store hfault hperform hvisits hrun => simp [hvisits, hlast]
  | failed e w' hvisits hrun => simp [hvisits, hlast]
  | stopped o hstops hwhy hvisits hrun => simp [hvisits]

theorem trace_finish (result : Except Error α) :
    ((Task.finish result).run.run s w).2.trace = .ending result :: w.trace := by
  cases result with
  | ok a =>
    rw [Task.run_finish_ok]
    exact Script.trace_ask_last fun answer w => by cases answer <;> rfl
  | error e =>
    rw [Task.run_finish_error]
    exact Script.trace_ask_last fun answer w => by cases answer <;> rfl

/-- A transaction that does not begin asks for nothing else. -/
theorem trace_ask_begin {next : Except Error Access.begin.Answer → Script (Except Error α)}
    (herror : ∀ e, next (.error e) = .done (.error e))
    (hbegin : s.faults .begin (w.uses .begin) ≠ none ∨ w.store.isLocked = true) :
    ((Script.ask .begin next).run s w).1.Fails ∧
      ((Script.ask .begin next).run s w).2.trace = .begin :: w.trace := by
  cases Script.asked s .begin next w with
  | answered answer store hfault hperform hvisits hrun =>
    rcases hbegin with hstruck | hlocked
    · exact absurd hfault hstruck
    · rw [Store.perform, if_pos hlocked] at hperform
      cases hperform
  | failed e w' hvisits hrun =>
    rw [herror] at hvisits hrun
    refine ⟨hrun ▸ Outcome.fails_error e, ?_⟩
    rw [Script.trace_run, hvisits]
    rfl
  | stopped o hstops hwhy hvisits hrun =>
    rw [hrun]
    exact ⟨fun a => hstops _, rfl⟩

theorem trace_transact_unbegun (body : Task α)
    (hbegin : s.faults .begin (w.uses .begin) ≠ none ∨ w.store.isLocked = true) :
    ((Task.transact body).run.run s w).1.Fails ∧
      ((Task.transact body).run.run s w).2.trace = .begin :: w.trace := by
  rw [Task.run_transact]
  exact trace_ask_begin (fun e => rfl) hbegin

theorem Store.free_of_unlocked {store : Store} (h : store.isLocked = false) :
    store.Free store.tables := by
  obtain ⟨t, _ | record⟩ := store
  · rfl
  · cases h

/-- A transaction that begins works and is ended once, if its body comes to an end. -/
theorem trace_transact_begun (body : Task α) (hbegin : s.faults .begin (w.uses .begin) = none)
    (hfree : w.store.isLocked = false) :
    ((Task.transact body).run.run s w).2.trace =
      (body.run.run s w.begun).1.ending?.toList ++ (body.run.run s w.begun).2.trace := by
  rw [run_transact_begun (Store.free_of_unlocked hfree) hbegin, Script.run_bind]
  generalize body.run.run s w.begun = inside
  obtain ⟨result | m | _, w'⟩ := inside
  · exact trace_finish result
  · rfl
  · rfl

end

/-! ## Operations -/

/-- What a plan may ask of the store in a run from one world to another, and how it ends. -/
inductive Plan.Disciplined (s : Surroundings) (w : World) :
    Plan → Outcome (Except Error Reply) × World → Prop where
  /-- What is refused asks for nothing, reads no clock and takes no identifier. -/
  | refused (e : Error) : Disciplined s w (.refuse e) (.answered (.error e), w.abandon)
  /-- What only looks asks with queries. -/
  | looked {task : Task Reply} {ran : Outcome (Except Error Reply) × World} (asked : List Access)
      (hasked : ∀ a ∈ asked, a.IsQuery) (htrace : ran.2.trace = asked ++ w.trace) :
      Disciplined s w (.look task) ran
  /-- A transaction that cannot begin is begun once, in vain. -/
  | unbegun {body : Instant → Task Settled} {ran : Outcome (Except Error Reply) × World}
      (hbegin : s.faults .begin (w.uses .begin) ≠ none ∨ w.store.isLocked = true)
      (hfails : ran.1.Fails) (htrace : ran.2.trace = .begin :: w.trace) :
      Disciplined s w (.change body) ran
  /-- A transaction that begins makes the calls of its body, all of which are carried out if the
  body succeeds, and is committed if it succeeds and rolled back if it fails. There is no third way
  unless a call panicked or hung. -/
  | begun {body : Instant → Task Settled} {ran : Outcome (Except Error Reply) × World}
      (hbegin : s.faults .begin (w.uses .begin) = none) (hfree : w.store.isLocked = false)
      (inside : Outcome (Except Error Settled) × World)
      (hinside : (body (s.clock w.clockReads)).run.run s w.clockRead.begun = inside)
      (calls : List Access) (hcalls : ∀ a ∈ calls, a.IsCall)
      (hbody : inside.2.trace = calls ++ .begin :: w.trace)
      (hdone : ∀ settled, inside.1 = .answered (.ok settled) →
        ∀ v ∈ (body (s.clock w.clockReads)).run.visits s w.clockRead.begun, v.done = true)
      (hends : (∃ result, inside.1 = .answered result) ∨ s.Stopped inside.2.trace)
      (htrace : ran.2.trace = inside.1.ending?.toList ++ inside.2.trace) :
      Disciplined s w (.change body) ran

section

variable (s : Surroundings) (sanitizer : Sanitizer) (op : Operation) (w : World)

theorem Operation.disciplined :
    (op.plan sanitizer).Disciplined s w (op.perform s sanitizer w) := by
  have hsound := op.plan_sound sanitizer
  unfold perform Script.perform
  rw [op.task_eq_plan]
  generalize op.plan sanitizer = plan at hsound ⊢
  cases plan with
  | refuse e => exact .refused e
  | look task =>
    obtain ⟨asked, hasked, htrace⟩ := Script.trace_of_only (s := s) (w := w) hsound
    exact .looked asked hasked htrace
  | change body =>
    rw [Plan.run_change]
    change Plan.Disciplined s w _ ((Plan.settle ((Task.transact _).run.run s w.clockRead)).1,
      (Plan.settle ((Task.transact _).run.run s w.clockRead)).2.abandon)
    obtain ⟨-, -, -, hsettled⟩ :=
      Plan.settle_keeps ((Task.transact (body (s.clock w.clockReads))).run.run s w.clockRead)
    by_cases hbegin : s.faults .begin (w.uses .begin) ≠ none ∨ w.store.isLocked = true
    · obtain ⟨hfails, htrace⟩ := trace_transact_unbegun (w := w.clockRead)
        (body (s.clock w.clockReads)) hbegin
      exact .unbegun hbegin (Plan.settle_fails _ hfails) (hsettled.trans htrace)
    · obtain ⟨hfault, hlocked⟩ := not_or.mp hbegin
      have hfault' := not_not.mp hfault
      have hfree := Bool.eq_false_iff.mpr hlocked
      have hcalls := hsound (s.clock w.clockReads)
      obtain ⟨calls, hasked, hbody⟩ :=
        Script.trace_of_only (s := s) (w := w.clockRead.begun) hcalls
      refine .begun hfault' hfree _ rfl calls hasked hbody ?_ ?_ ?_
      · exact fun settled hok => Script.done_of_ok hcalls hok
      · exact Script.answered_or_stopped (answering_working w.store.tables) hcalls
          (Store.Working.begin w.store.tables)
      · exact hsettled.trans (trace_transact_begun (w := w.clockRead) _ hfault' hfree)

/-- **Discipline.** In every run of an operation, whatever the store is and wherever faults strike,
the store is asked as the plan of the operation allows, which for changes is one transaction. An
operation on a post reads and writes versions only after it has locked the post, in the same
transaction, and whatever operation writes a version anew or deletes it has locked and read it
before; a version that it makes was not there. -/
theorem transaction_discipline :
    (op.isMutation = true →
      (∃ e, op.plan sanitizer = .refuse e) ∨ ∃ body, op.plan sanitizer = .change body) ∧
    (op.plan sanitizer).Disciplined s w (op.perform s sanitizer w) ∧
    (op.perform s sanitizer w).2.trace =
      ((op.visits s sanitizer w).map (·.access)).reverse ++ w.trace ∧
    ∀ before v after, op.visits s sanitizer w = before ++ v :: after →
      (∀ id, op.target? = some id → v.access.onVersions = true → ∃ u ∈ before, u.LocksPost id) ∧
      (∀ key, v.access.rewrites? = some key → ∃ u ∈ before, u.LocksVersion key) ∧
      (∀ x, v.access = .call (.createVersion x) → v.done = true →
        (storeAfter w.store before).tables.versions.get? x.id = none) := by
  refine ⟨op.plan_of_mutation sanitizer, op.disciplined s sanitizer w,
    (op.task sanitizer).run.trace_run s w, fun before v after hsplit => ?_⟩
  have hnothing : Held.nothing.By [] := .nothing
  obtain ⟨held, hheld, hallowed⟩ :=
    Script.visits_locks (op.task_locks sanitizer) hnothing hsplit
  refine ⟨fun id htarget hversions => ?_, fun key hkey => ?_, fun x hcreate hdone => ?_⟩
  · exact hheld.posts id (hallowed.posts id htarget hversions)
  · exact hheld.versions key (hallowed.versions key hkey)
  · obtain ⟨answer, hperform⟩ := Script.visits_done hsplit hdone
    obtain ⟨access, done, store⟩ := v
    obtain rfl : access = _ := hcreate
    exact Store.new_of_createVersion hperform

end

/-- A draft is published and a new one is stacked on it. The first is written anew after it and its
post were locked, the second after the post was. -/
theorem transaction_discipline_of_stacked :
    let s : Surroundings := .serving [] ((List.range 3).map .ofNat)
    let post : Uuid := .ofNat 0
    let publish : Operation := .publishPost post
    let edit : Operation := .updatePost post ⟨none, some "more"⟩
    let w := ((Operation.createPost ⟨"title", "text"⟩).perform s .identity World.initial).2
    let w' := (publish.perform s .identity w).2
    let draft : Version := { id := .ofNat 2, post, number := 2, title := "title", content := "more"
                             published := none, created := .epoch }
    (publish.isMutation = true ∧ ∃ body, publish.plan .identity = .change body) ∧
    (publish.visits s .identity w).map (·.access.method) =
      [.begin, .lockPost, .lockLatestVersion, .updateVersion, .updatePost, .commit] ∧
    (∃ before v after, publish.visits s .identity w = before ++ v :: after ∧
      v.access.rewrites? = some (.ofNat 1) ∧ v.access.onVersions = true ∧
      (∃ u ∈ before, u.LocksPost post) ∧ ∃ u ∈ before, u.LocksVersion (.ofNat 1)) ∧
    (edit.visits s .identity w').map (·.access.method) =
      [.begin, .lockPost, .lockLatestVersion, .createVersion, .updatePost, .commit] ∧
    ∃ before v after, edit.visits s .identity w' = before ++ v :: after ∧
      (v.access = .call (.createVersion draft) ∧ v.done = true) ∧
      (∃ u ∈ before, u.LocksPost post) ∧
      (storeAfter w'.store before).tables.versions.get? draft.id = none := by
  intro s post publish edit w w' draft
  obtain ⟨hplanned, -, -, hpublish⟩ := transaction_discipline s .identity publish w
  obtain ⟨-, -, -, hedit⟩ := transaction_discipline s .identity edit w'
  have hchange : ∃ body, publish.plan .identity = .change body := by
    rcases hplanned rfl with ⟨e, hrefused⟩ | hchange
    · cases hrefused
    · exact hchange
  obtain ⟨v, hv, hkey, hversions⟩ : ∃ v ∈ publish.visits s .identity w,
      v.access.rewrites? = some (.ofNat 1) ∧ v.access.onVersions = true := by decide +kernel
  obtain ⟨before, after, hsplit⟩ := List.append_of_mem hv
  obtain ⟨hpost, hversion, -⟩ := hpublish before v after hsplit
  obtain ⟨v', hv', hcreate, hdone⟩ : ∃ v ∈ edit.visits s .identity w',
      v.access = .call (.createVersion draft) ∧ v.done = true := by decide +kernel
  obtain ⟨before', after', hsplit'⟩ := List.append_of_mem hv'
  obtain ⟨hpost', -, hnew⟩ := hedit before' v' after' hsplit'
  refine ⟨⟨rfl, hchange⟩, by decide +kernel, ?_, by decide +kernel, ?_⟩
  · exact ⟨before, v, after, hsplit, hkey, hversions, hpost post rfl hversions,
      hversion _ hkey⟩
  · exact ⟨before', v', after', hsplit', ⟨hcreate, hdone⟩, hpost' post rfl (by rw [hcreate]; rfl),
      hnew draft hcreate hdone⟩

end Weblog
