import Weblog.Proofs.Plan

/-!
# What operations come to

An operation that meets no fault has an effect that depends on the tables, on one instant and on the
identifiers that it takes, and on nothing else (`Operation.effect`, `effect_congr`). A run of it has
that effect or none:

* `perform_cases`: when no transaction is open, a run has just the effect of the operation, or a
  fault strikes it, and then it fails and the store is what it was.
-/

namespace Weblog

/-! ## Effects -/

/-- What an operation comes to: the answer and the tables after it, how often it read the clock, how
many identifiers it took, and what it reported, newest first. -/
structure Effect where
  answer : Except Error Reply
  tables : Tables
  clockReads : Nat
  taken : Nat
  events : List Event

/-- What a change comes to when its body has been evaluated. -/
def Effect.settled (t : Tables) : Except Error Settled × Workspace → Effect
  | (.ok settled, ws) =>
    ⟨.ok settled.reply, ws.tables, 1, ws.taken, settled.event?.toList ++ ws.events⟩
  | (.error e, ws) => ⟨.error e, t, 1, ws.taken, ws.events⟩

/-- What a plan comes to at one instant when no fault strikes. -/
def Plan.effect (now : Instant) (fresh : Nat → Uuid) (t : Tables) : Plan → Effect
  | .refuse e => ⟨.error e, t, 0, 0, []⟩
  | .look task =>
    let (answer, ws) := task.eval now fresh ⟨t, 0, []⟩
    ⟨answer, ws.tables, 0, ws.taken, ws.events⟩
  | .change body => .settled t ((body now).eval now fresh ⟨t, 0, []⟩)

/-- What an operation comes to at one instant when no fault strikes. -/
def Operation.effect (sanitizer : Sanitizer) (op : Operation) (now : Instant)
    (fresh : Nat → Uuid) (t : Tables) : Effect :=
  (op.plan sanitizer).effect now fresh t

theorem Access.IsQuery.keeps {a : Access} (h : a.IsQuery) (t : Tables) : (t.ask a).2 = t := by
  obtain ⟨q, rfl⟩ := h
  rfl

namespace Operation

variable {sanitizer : Sanitizer} {op : Operation} {now now' : Instant} {fresh fresh' : Nat → Uuid}
  {t : Tables}

/-- An error changes nothing. -/
theorem effect_tables_of_error {e : Error}
    (h : (op.effect sanitizer now fresh t).answer = .error e) :
    (op.effect sanitizer now fresh t).tables = t := by
  have hsound := op.plan_sound sanitizer
  unfold effect at h ⊢
  generalize op.plan sanitizer = plan at h hsound ⊢
  cases plan with
  | refuse e' => rfl
  | look task => exact Script.eval_keeps (f := id) (fun a t ha => ha.keeps t) hsound _
  | change body =>
    simp only [Plan.effect] at h ⊢
    generalize (body now).eval now fresh ⟨t, 0, []⟩ = meant at h ⊢
    obtain ⟨result, ws⟩ := meant
    cases result with
    | ok settled => cases h
    | error e' => rfl

/-- A look changes nothing and reports nothing. -/
theorem effect_of_look (h : op.isMutation = false) :
    (op.effect sanitizer now fresh t).tables = t ∧
      (op.effect sanitizer now fresh t).events = [] := by
  have hlook {α : Type} {task : Task α} (f : α → Reply)
      (hws : (task.eval now fresh ⟨t, 0, []⟩).2 = ⟨t, 0, []⟩) :
      ((Plan.look (f <$> task)).effect now fresh t).tables = t ∧
        ((Plan.look (f <$> task)).effect now fresh t).events = [] := by
    simp only [Plan.effect, Task.eval_map, hws, and_self]
  cases op with
  | getPost id =>
    have hquery : (Task.query (.currentPost id)).eval now fresh ⟨t, 0, []⟩ =
        (.ok (t.currentPost? id), ⟨t, 0, []⟩) := rfl
    refine hlook Reply.detail ?_
    rw [Posts.get, Task.eval_bind_ok hquery]
    cases t.currentPost? id <;> rfl
  | getVersion id =>
    have hquery : (Task.query (.version id)).eval now fresh ⟨t, 0, []⟩ =
        (.ok (t.versions.get? id), ⟨t, 0, []⟩) := rfl
    refine hlook Reply.version ?_
    rw [Posts.getVersion, Task.eval_bind_ok hquery]
    cases t.versions.get? id <;> rfl
  | getCategory id =>
    have hquery : (Task.query (.category id)).eval now fresh ⟨t, 0, []⟩ =
        (.ok (t.categories.get? id), ⟨t, 0, []⟩) := rfl
    refine hlook Reply.category ?_
    rw [Categories.get, Task.eval_bind_ok hquery]
    cases t.categories.get? id <;> rfl
  | createPost r | updatePost id r | publishPost id | deleteDraft id | createCategory r
  | updateCategory id r | attach r => cases h

/-- An effect depends on the instant only if the clock is read, and only on the identifiers that
are taken. -/
theorem effect_congr
    (hnow : 0 < (op.effect sanitizer now fresh t).clockReads → now' = now)
    (hfresh : ∀ n, n < (op.effect sanitizer now fresh t).taken → fresh' n = fresh n) :
    op.effect sanitizer now' fresh' t = op.effect sanitizer now fresh t := by
  have hsound := op.plan_sound sanitizer
  unfold effect at hnow hfresh ⊢
  generalize op.plan sanitizer = plan at hnow hfresh hsound ⊢
  cases plan with
  | refuse e => rfl
  | look task =>
    have heval : task.eval now' fresh' ⟨t, 0, []⟩ = task.eval now fresh ⟨t, 0, []⟩ :=
      Script.eval_congr hsound _ fun n _ hn => hfresh n hn
    simp only [Plan.effect, heval]
  | change body =>
    simp only [Plan.effect] at hnow hfresh ⊢
    have hone : 0 < (Effect.settled t ((body now).eval now fresh ⟨t, 0, []⟩)).clockReads := by
      rcases (body now).eval now fresh ⟨t, 0, []⟩ with ⟨_ | settled, ws⟩ <;> exact Nat.one_pos
    have htaken : (Effect.settled t ((body now).eval now fresh ⟨t, 0, []⟩)).taken =
        ((body now).eval now fresh ⟨t, 0, []⟩).2.taken := by
      rcases (body now).eval now fresh ⟨t, 0, []⟩ with ⟨_ | settled, ws⟩ <;> rfl
    obtain rfl := hnow hone
    have heval : (body now').eval now' fresh' ⟨t, 0, []⟩ = (body now').eval now' fresh ⟨t, 0, []⟩ :=
      Script.eval_congr (hsound now') _ fun n _ hn => hfresh n (htaken ▸ hn)
    rw [heval]

end Operation

/-! ## Runs of operations -/

/-- What a run of an operation came to: it met no fault and had its effect, or it met one, failed
and left the tables as they were. -/
inductive Performed (s : Surroundings) (w : World) (t : Tables) (effect : Effect)
    (ran : Outcome (Except Error Reply) × World) : Prop where
  | done (hcalm : s.Calm w.trace ran.2.trace)
      (hanswer : ran.1 = .answered effect.answer)
      (hstore : ran.2.store = ⟨effect.tables, none⟩)
      (hclock : ran.2.clockReads = w.clockReads + effect.clockReads)
      (hids : ran.2.idsUsed = w.idsUsed + effect.taken)
      (hevents : ran.2.events = effect.events ++ w.events)
  | struck (hstruck : ¬ s.Calm w.trace ran.2.trace) (hfails : ran.1.Fails)
      (hstore : ran.2.store = ⟨t, none⟩)

/-- What is left to do after the transaction of a change. -/
def Plan.settle : Outcome (Except Error Settled) × World → Outcome (Except Error Reply) × World
  | (.answered (.ok settled), w) =>
    (.answered (.ok settled.reply), { w with events := settled.event?.toList ++ w.events })
  | (.answered (.error e), w) => (.answered (.error e), w)
  | (.panicked m, w) => (.panicked m, w)
  | (.pending, w) => (.pending, w)

/-- A change reads the clock, makes its transaction and settles. -/
theorem Plan.run_change (s : Surroundings) (body : Instant → Task Settled) (w : World) :
    (Plan.change body).task.run.run s w =
      settle ((Task.transact (body (s.clock w.clockReads))).run.run s
        { w with clockReads := w.clockReads + 1 }) := by
  change Script.run s (Task.transact (body (s.clock w.clockReads)) >>= _).run _ = _
  rw [Task.run_bind, Script.run_bind]
  rcases (Task.transact (body (s.clock w.clockReads))).run.run s
    { w with clockReads := w.clockReads + 1 } with ⟨result | m | _, w'⟩
  · cases result with
    | error e => rfl
    | ok settled =>
      obtain ⟨reply, _ | e⟩ := settled <;> rfl
  · rfl
  · rfl

section

variable (ran : Outcome (Except Error Settled) × World)

/-- Settling reports at most an event. -/
theorem Plan.settle_keeps :
    (settle ran).2.store = ran.2.store ∧ (settle ran).2.clockReads = ran.2.clockReads ∧
      (settle ran).2.idsUsed = ran.2.idsUsed ∧ (settle ran).2.trace = ran.2.trace := by
  rcases ran with ⟨⟨_ | settled⟩ | m | _, w⟩ <;> exact ⟨rfl, rfl, rfl, rfl⟩

theorem Plan.settle_fails (h : ran.1.Fails) : (settle ran).1.Fails := by
  rcases ran with ⟨⟨e | settled⟩ | m | _, w⟩
  · exact Outcome.fails_error e
  · exact absurd rfl (h settled)
  · exact Outcome.fails_panicked m
  · exact Outcome.fails_pending

end

/-- **Operations.** When no transaction is open, a run of an operation has the effect of the
operation at the instant that the clock shows, or a fault strikes it, and then it fails and the
store is what it was. -/
theorem perform_cases (s : Surroundings) (sanitizer : Sanitizer) (op : Operation) {w : World}
    {t : Tables} (hfree : w.store.Free t) :
    Performed s w t
      (op.effect sanitizer (s.clock w.clockReads) (fun n => s.ids (w.idsUsed + n)) t)
      (op.perform s sanitizer w) := by
  unfold Operation.perform Operation.effect Script.perform
  rw [op.task_eq_plan]
  have hsound := op.plan_sound sanitizer
  generalize op.plan sanitizer = plan at hsound
  cases plan with
  | refuse e =>
    exact .done (s.calm_refl _) rfl ((Store.abandon_free hfree).trans hfree) rfl rfl rfl
  | look task =>
    have hat : World.At (Store.Idle t) w.idsUsed w.events w ⟨t, 0, []⟩ := ⟨⟨rfl, hfree⟩, rfl, rfl⟩
    have hran := Script.run_only s (s.clock w.clockReads) (answering_idle t) hsound hat
    obtain ⟨hclock, -, ⟨hcalm, hanswer, hat'⟩ | ⟨hstruck, hfails, -, -, hfree'⟩⟩ := hran
    · obtain ⟨htables, hfree'⟩ := hat'.store
      refine .done hcalm hanswer ?_ hclock hat'.ids hat'.events
      have habandon := (Store.abandon_free hfree').trans hfree'
      exact habandon.trans (congrArg (Store.mk · none) htables.symm)
    · exact .struck hstruck hfails ((Store.abandon_free hfree').trans hfree')
  | change body =>
    obtain ⟨htransacted, hclock⟩ := transact_cases s (s.clock w.clockReads)
      (hsound (s.clock w.clockReads)) (w := { w with clockReads := w.clockReads + 1 }) hfree
    simp only [Plan.run_change, Plan.effect]
    generalize (body (s.clock w.clockReads)).eval _ _ _ = meant at htransacted ⊢
    generalize (Task.transact (body (s.clock w.clockReads))).run.run s _ = ran
      at htransacted hclock ⊢
    obtain ⟨hstore', hclock', hids', htrace'⟩ := Plan.settle_keeps ran
    cases htransacted with
    | ended calls hcalls htrace hcalm hanswer hstore hids hevents =>
      have hfree' := hstore'.trans hstore
      have habandon : (Plan.settle ran).2.abandon.store = _ :=
        (Store.abandon_free hfree').trans hfree'
      have hcalm' : s.Calm w.trace (Plan.settle ran).2.trace := htrace' ▸ hcalm
      obtain ⟨result, ws⟩ := meant
      obtain ⟨o, w'⟩ := ran
      obtain rfl : o = .answered result := hanswer
      cases result with
      | ok settled =>
        exact .done hcalm' rfl habandon hclock hids
          ((congrArg (settled.event?.toList ++ ·) hevents).trans (List.append_assoc _ _ _).symm)
      | error e => exact .done hcalm' rfl habandon hclock hids hevents
    | struck hstruck hfails hstore =>
      refine .struck ?_ (Plan.settle_fails ran hfails) ?_
      · exact htrace' ▸ hstruck
      · exact (congrArg Store.abandon hstore').trans hstore

end Weblog
