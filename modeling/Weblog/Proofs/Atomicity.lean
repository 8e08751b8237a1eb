import Weblog.Proofs.Effect

/-!
# Atomicity

An operation happens as a whole or not at all, wherever a fault strikes.

* `committed_of_ok`: a change that succeeds has committed its one transaction.
* `perform_of_error`, `perform_of_commit_fails`: which error is answered when the end of a
  transaction fails too.
* `performAll_successes`: the steps of a run that did not succeed may be left out. Served with the
  readings and identifiers that they used, the others give the same answers and the same tables.
* `operations_atomic` puts these together.
-/

namespace Weblog

/-! ## Single operations -/

section

variable (s : Surroundings) (sanitizer : Sanitizer) (op : Operation) {w : World} {t : Tables}

theorem perform_free (hfree : w.store.Free t) :
    ∃ t', (op.perform s sanitizer w).2.store.Free t' := by
  cases perform_cases s sanitizer op hfree with
  | done _ _ hstore => exact ⟨_, hstore⟩
  | struck _ _ hstore => exact ⟨_, hstore⟩

/-- An operation that does not succeed leaves the store as it was. -/
theorem perform_of_fails (hfree : w.store.Free t) (hfails : (op.perform s sanitizer w).1.Fails) :
    (op.perform s sanitizer w).2.store = ⟨t, none⟩ := by
  cases perform_cases s sanitizer op hfree with
  | struck _ _ hstore => exact hstore
  | done hcalm hanswer hstore =>
    cases heffect : (op.effect sanitizer (s.clock w.clockReads)
        (fun n => s.ids (w.idsUsed + n)) t).answer with
    | ok reply => exact absurd (hanswer.trans (congrArg _ heffect)) (hfails reply)
    | error e => rw [hstore, Operation.effect_tables_of_error heffect]

/-- A look leaves the store as it was. -/
theorem perform_of_look (hfree : w.store.Free t) (h : op.isMutation = false) :
    (op.perform s sanitizer w).2.store = ⟨t, none⟩ := by
  cases perform_cases s sanitizer op hfree with
  | struck _ _ hstore => exact hstore
  | done _ _ hstore => rw [hstore, (Operation.effect_of_look h).1]

variable {s sanitizer op} in
/-- An operation that succeeds has had its effect, which is a success too. -/
theorem perform_of_ok {reply : Reply} (hfree : w.store.Free t)
    (hok : (op.perform s sanitizer w).1 = .answered (.ok reply)) :
    let effect := op.effect sanitizer (s.clock w.clockReads) (fun n => s.ids (w.idsUsed + n)) t
    effect.answer = .ok reply ∧ (op.perform s sanitizer w).2.store.Free effect.tables := by
  intro effect
  cases perform_cases s sanitizer op hfree with
  | struck _ hfails _ => exact absurd hok (hfails reply)
  | done _ hanswer hstore => exact ⟨Outcome.answered.inj (hanswer.symm.trans hok), hstore⟩

variable {s sanitizer op} in
/-- An operation that meets no fault has its effect. -/
theorem perform_of_calm (hfree : w.store.Free t)
    (hcalm : s.Calm w.trace (op.perform s sanitizer w).2.trace) :
    let effect := op.effect sanitizer (s.clock w.clockReads) (fun n => s.ids (w.idsUsed + n)) t
    (op.perform s sanitizer w).1 = .answered effect.answer ∧
      (op.perform s sanitizer w).2.store.Free effect.tables := by
  intro effect
  cases perform_cases s sanitizer op hfree with
  | struck hstruck _ _ => exact absurd hcalm hstruck
  | done _ hanswer hstore => exact ⟨hanswer, hstore⟩

/-- Without faults, at one instant and with one identifier to take, an operation has its effect. -/
theorem perform_undisturbed (now : Instant) (id : Uuid) (hfree : w.store.Free t) :
    let effect := op.effect sanitizer now (fun _ => id) t
    let ran := op.perform (.undisturbed (fun _ => now) fun _ => id) sanitizer w
    ran.1 = .answered effect.answer ∧ ran.2.store.Free effect.tables := by
  intro effect ran
  exact perform_of_calm hfree (Surroundings.calm_of_no_faults fun _ _ => rfl)

variable {s sanitizer op} in
/-- An operation that is refused leaves the world as it was. -/
theorem perform_of_refuse {e : Error} (hfree : w.store.Free t)
    (hplan : op.plan sanitizer = .refuse e) :
    op.perform s sanitizer w = (.answered (.error e), w) := by
  have habandon : w.abandon = w :=
    congrArg (fun store => { w with store }) (Store.abandon_free hfree)
  unfold Operation.perform Script.perform
  rw [op.task_eq_plan, hplan]
  change (Outcome.answered (Except.error e), w.abandon) = _
  rw [habandon]

/-- Operations that can change something are refused or are changes. -/
theorem Operation.plan_of_mutation (h : op.isMutation = true) :
    (∃ e, op.plan sanitizer = .refuse e) ∨ ∃ body, op.plan sanitizer = .change body := by
  cases op with
  | createPost r | createCategory r | updateCategory id r | attach r | updatePost id r =>
    simp only [plan]
    split
    · exact .inl ⟨_, rfl⟩
    · exact .inr ⟨_, rfl⟩
  | publishPost id | deleteDraft id => exact .inr ⟨_, rfl⟩
  | getPost id | getVersion id | getCategory id => cases h

/-- A transaction was begun, worked in and committed with no fault since a trace, and what it wrote
are the tables now. -/
structure Committed (s : Surroundings) (before : List Access) (written : Tables) (w : World) :
    Prop where
  trace : ∃ calls : List Access, (∀ a ∈ calls, a.IsCall) ∧
    w.trace = .commit :: (calls ++ .begin :: before)
  calm : s.Calm before w.trace
  store : w.store = ⟨written, none⟩

/-- A change that succeeds has evaluated its body and committed what the body wrote. -/
theorem committed_of_ok (hfree : w.store.Free t) (hmutation : op.isMutation = true) {reply : Reply}
    (hok : (op.perform s sanitizer w).1 = .answered (.ok reply)) :
    ∃ body settled ws, op.plan sanitizer = .change body ∧
      (body (s.clock w.clockReads)).eval (s.clock w.clockReads)
        (fun n => s.ids (w.idsUsed + n)) ⟨t, 0, []⟩ = (.ok settled, ws) ∧
      settled.reply = reply ∧ Committed s w.trace ws.tables (op.perform s sanitizer w).2 := by
  have hsound := op.plan_sound sanitizer
  unfold Operation.perform Script.perform at hok ⊢
  rw [op.task_eq_plan] at hok ⊢
  rcases op.plan_of_mutation sanitizer hmutation with ⟨e, hplan⟩ | ⟨body, hplan⟩
  · rw [hplan] at hok
    cases hok
  · rw [hplan] at hok hsound ⊢
    obtain ⟨htransacted, -⟩ := transact_cases s (s.clock w.clockReads)
      (hsound (s.clock w.clockReads)) (w := { w with clockReads := w.clockReads + 1 }) hfree
    simp only [Plan.run_change] at hok ⊢
    generalize hmeant : (body (s.clock w.clockReads)).eval _ _ _ = meant at htransacted
    generalize (Task.transact (body (s.clock w.clockReads))).run.run s _ = ran at htransacted hok ⊢
    obtain ⟨hstore', -, -, htrace'⟩ := Plan.settle_keeps ran
    cases htransacted with
    | struck hstruck hfails hstore => exact absurd hok (Plan.settle_fails ran hfails reply)
    | ended calls hcalls htrace hcalm hanswer hstore hids hevents =>
      obtain ⟨result, ws⟩ := meant
      obtain ⟨o, w'⟩ := ran
      obtain rfl : o = .answered result := hanswer
      cases result with
      | error e => cases hok
      | ok settled =>
        cases hok
        have hfree' := hstore'.trans hstore
        exact ⟨body, settled, ws, rfl, hmeant, rfl, ⟨calls, hcalls, htrace⟩, hcalm,
          (Store.abandon_free hfree').trans hfree'⟩

end

/-! ## Which error is answered -/

section

variable {s : Surroundings} {sanitizer : Sanitizer} {op : Operation} {w w' : World} {t : Tables}
  {body : Instant → Task Settled}

/-- The world in which the transaction of an operation starts. -/
def World.clockRead (w : World) : World :=
  { w with clockReads := w.clockReads + 1 }

variable (hplan : op.plan sanitizer = .change body) (hfree : w.store.Free t)
  (hbegin : s.faults .begin (w.uses .begin) = none)

include hplan hfree hbegin

omit hfree hbegin in
/-- The error of the transaction of an operation is the answer. -/
theorem perform_of_transact {e : Error}
    (h : ((Task.transact (body (s.clock w.clockReads))).run.run s w.clockRead).1 =
      .answered (.error e)) :
    (op.perform s sanitizer w).1 = .answered (.error e) := by
  unfold Operation.perform Script.perform
  simp only [op.task_eq_plan, hplan, Plan.run_change]
  change (Plan.settle ((Task.transact _).run.run s w.clockRead)).1 = _
  generalize (Task.transact (body (s.clock w.clockReads))).run.run s w.clockRead = ran at h ⊢
  obtain ⟨o, w₁⟩ := ran
  obtain rfl : o = _ := h
  rfl

/-- When the body of an operation fails and the rollback fails too, the answer is the error of the
body. -/
theorem perform_of_error {e failure : Error} {events : List Event}
    (hbody : (body (s.clock w.clockReads)).run.run s w.clockRead.begun = (.answered (.error e), w'))
    (hrollback : s.faults .rollback (w'.uses .rollback) = some (.fails failure events)) :
    (op.perform s sanitizer w).1 = .answered (.error e) :=
  perform_of_transact hplan
    (run_transact_of_error (w := w.clockRead) hfree hbegin hbody hrollback)

/-- When the commit of an operation fails, the answer is the error of the commit. -/
theorem perform_of_commit_fails {settled : Settled} {failure : Error} {events : List Event}
    (hbody : (body (s.clock w.clockReads)).run.run s w.clockRead.begun =
      (.answered (.ok settled), w'))
    (hcommit : s.faults .commit (w'.uses .commit) = some (.fails failure events)) :
    (op.perform s sanitizer w).1 = .answered (.error failure) :=
  perform_of_transact hplan (run_transact_of_ok (w := w.clockRead) hfree hbegin hbody hcommit)

end

/-! ## Steps that succeeded -/

/-- A step of a run that succeeded: what was done and answered, at which instants and with which
identifiers. -/
structure Success where
  op : Operation
  reply : Reply
  times : List Instant
  ids : List Uuid

/-- What a source gave between two readings. -/
def readings {α : Type} (source : Nat → α) (before after : Nat) : List α :=
  (List.range (after - before)).map fun n => source (before + n)

def Outcome.reply? : Outcome (Except Error Reply) → Option Reply
  | .answered (.ok reply) => some reply
  | _ => none

theorem Outcome.eq_of_reply? {o : Outcome (Except Error Reply)} {reply : Reply}
    (h : o.reply? = some reply) : o = .answered (.ok reply) := by
  rcases o with ⟨e | reply'⟩ | m | _ <;> cases h
  rfl

theorem Outcome.fails_of_reply? {o : Outcome (Except Error Reply)} (h : o.reply? = none) :
    o.Fails := by
  rintro reply rfl
  cases h

/-- The steps of a run that succeeded. -/
def successes (s : Surroundings) (sanitizer : Sanitizer) : List Operation → World → List Success
  | [], _ => []
  | op :: rest, w =>
    let ran := op.perform s sanitizer w
    let later := successes s sanitizer rest ran.2
    match ran.1.reply? with
    | some reply =>
      { op, reply
        times := readings s.clock w.clockReads ran.2.clockReads
        ids := readings s.ids w.idsUsed ran.2.idsUsed } :: later
    | none => later

/-- Surroundings without faults that give instants and identifiers in turn. -/
def Surroundings.serving (times : List Instant) (ids : List Uuid) : Surroundings :=
  .undisturbed (fun n => times.getD n .epoch) (fun n => ids.getD n (.ofNat 0))

/-- What succeeded is told by the outcomes. -/
theorem successes_eq (s : Surroundings) (sanitizer : Sanitizer) (ops : List Operation) (w : World) :
    (successes s sanitizer ops w).map (fun k => (k.op, k.reply)) =
      (ops.zip (performAll s sanitizer ops w).1).filterMap
        fun (op, outcome) => outcome.reply?.map (op, ·) := by
  induction ops generalizing w with
  | nil => rfl
  | cons op rest ih =>
    simp only [successes, performAll, List.zip_cons_cons, List.filterMap_cons]
    cases (op.perform s sanitizer w).1.reply? with
    | none => exact ih _
    | some reply => exact congrArg _ (ih _)

/-- From some reading on, a source gives the members of a list. -/
def Serves {α : Type} (source : Nat → α) (start : Nat) (given : List α) : Prop :=
  ∀ n a, given[n]? = some a → source (start + n) = a

section

variable {α : Type} {source from' : Nat → α} {start before taken : Nat} {rest : List α}

theorem serves_getD (given : List α) (a : α) : Serves (fun n => given.getD n a) 0 given := by
  intro n b hn
  simp only [Nat.zero_add, List.getD_eq_getElem?_getD, hn, Option.getD_some]

theorem Serves.head (h : Serves source start (readings from' before (before + taken) ++ rest)) :
    ∀ n, n < taken → source (start + n) = from' (before + n) := by
  intro n hn
  have hlength : n < (readings from' before (before + taken)).length := by
    simpa [readings] using hn
  refine h n _ ?_
  rw [List.getElem?_append_left hlength]
  simp [readings, hn]

theorem Serves.tail (h : Serves source start (readings from' before (before + taken) ++ rest)) :
    Serves source (start + taken) rest := by
  intro n a hn
  have hlength : (readings from' before (before + taken)).length = taken := by simp [readings]
  rw [Nat.add_assoc]
  refine h (taken + n) a ?_
  rw [List.getElem?_append_right (by omega), hlength, Nat.add_sub_cancel_left, hn]

end

/-- The steps of a run that succeeded, done again without faults on the same tables and served with
what they used, give the same answers and leave the same tables. -/
theorem performAll_successes_of_serves {s s' : Surroundings} {sanitizer : Sanitizer}
    (hcalm : ∀ m n, s'.faults m n = none) (ops : List Operation) {w w' : World} {t : Tables}
    (hfree : w.store.Free t) (hfree' : w'.store.Free t)
    (htimes : Serves s'.clock w'.clockReads ((successes s sanitizer ops w).flatMap (·.times)))
    (hids : Serves s'.ids w'.idsUsed ((successes s sanitizer ops w).flatMap (·.ids))) :
    (performAll s' sanitizer ((successes s sanitizer ops w).map (·.op)) w').1 =
        (successes s sanitizer ops w).map (fun k => .answered (.ok k.reply)) ∧
      (performAll s' sanitizer ((successes s sanitizer ops w).map (·.op)) w').2.store =
        (performAll s sanitizer ops w).2.store := by
  induction ops generalizing w w' t with
  | nil => exact ⟨rfl, hfree'.trans hfree.symm⟩
  | cons op rest ih =>
    simp only [successes] at htimes hids ⊢
    change _ ∧ _ = (performAll s sanitizer rest (op.perform s sanitizer w).2).2.store
    have hperformed := perform_cases s sanitizer op hfree
    have hunchanged := perform_of_fails s sanitizer op hfree
    generalize op.perform s sanitizer w = ran at htimes hids hperformed hunchanged ⊢
    obtain ⟨o, w₁⟩ := ran
    cases hreply : o.reply? with
    | none =>
      simp only [hreply] at htimes hids ⊢
      exact ih (hunchanged (Outcome.fails_of_reply? hreply)) hfree' htimes hids
    | some reply =>
      obtain rfl := Outcome.eq_of_reply? hreply
      simp only [Outcome.reply?, List.flatMap_cons, List.map_cons] at htimes hids ⊢
      cases hperformed with
      | struck _ hfails _ => exact absurd rfl (hfails reply)
      | done _ hanswer hstore hclock hidsUsed _ =>
        dsimp only at hclock hidsUsed
        rw [hclock] at htimes
        rw [hidsUsed] at hids
        have heffect : op.effect sanitizer (s'.clock w'.clockReads)
            (fun n => s'.ids (w'.idsUsed + n)) t = op.effect sanitizer (s.clock w.clockReads)
            (fun n => s.ids (w.idsUsed + n)) t :=
          Operation.effect_congr (fun h => htimes.head 0 h) hids.head
        have hagain := perform_cases s' sanitizer op hfree'
        rw [heffect] at hagain
        simp only [performAll]
        cases hagain with
        | struck hstruck _ _ => exact absurd (Surroundings.calm_of_no_faults hcalm) hstruck
        | done _ hanswer' hstore' hclock' hidsUsed' _ =>
          obtain ⟨hanswers, htables⟩ := ih hstore hstore' (hclock' ▸ htimes.tail)
            (hidsUsed' ▸ hids.tail)
          refine ⟨?_, htables⟩
          rw [hanswers, hanswer'.trans hanswer.symm]

theorem performAll_free (s : Surroundings) (sanitizer : Sanitizer) (ops : List Operation)
    {w : World} {t : Tables} (hfree : w.store.Free t) :
    ∃ t', (performAll s sanitizer ops w).2.store.Free t' := by
  induction ops generalizing w t with
  | nil => exact ⟨t, hfree⟩
  | cons op rest ih =>
    obtain ⟨t', hfree'⟩ := perform_free s sanitizer op hfree
    exact ih hfree'

/-- The steps of a run that succeeded, done again without faults from where the run began and served
with what they used, give the same answers and leave the same store. -/
theorem performAll_successes (s : Surroundings) (sanitizer : Sanitizer) (ops : List Operation)
    {w : World} {t : Tables} (hfree : w.store.Free t) :
    let kept := successes s sanitizer ops w
    let again := performAll (.serving (kept.flatMap (·.times)) (kept.flatMap (·.ids))) sanitizer
      (kept.map (·.op)) { World.initial with store := w.store }
    again.1 = kept.map (fun k => .answered (.ok k.reply)) ∧
      again.2.store = (performAll s sanitizer ops w).2.store :=
  performAll_successes_of_serves (fun _ _ => rfl) ops hfree hfree
    (serves_getD _ _) (serves_getD _ _)

/-! ## The law -/

/-- **Atomicity under every fault.** Whatever tables there are while no transaction is open,
whatever operation is done and whatever faults strike: afterwards no transaction is open; an
operation that does not succeed leaves the tables as they were; a change that succeeds has
committed, without a fault since its start, what its body wrote. The error of the body is answered
even when the rollback fails, and the error of a commit is answered. Of a whole run the steps that
did not succeed may be left out: the others, served with the same instants and identifiers, give the
same answers and leave the same store. -/
theorem operations_atomic (s : Surroundings) (sanitizer : Sanitizer) :
    (∀ (op : Operation) (w : World) (t : Tables), w.store.Free t →
      let ran := op.perform s sanitizer w
      ran.2.store.isLocked = false ∧
      (ran.1.Fails → ran.2.store.tables = t) ∧
      (∀ reply, ran.1 = .answered (.ok reply) → op.isMutation = true →
        ∃ body settled ws, op.plan sanitizer = .change body ∧
          (body (s.clock w.clockReads)).eval (s.clock w.clockReads)
            (fun n => s.ids (w.idsUsed + n)) ⟨t, 0, []⟩ = (.ok settled, ws) ∧
          settled.reply = reply ∧ Committed s w.trace ws.tables ran.2)) ∧
    (∀ (op : Operation) (body : Instant → Task Settled) (w w' : World) (t : Tables),
      op.plan sanitizer = .change body → w.store.Free t →
      s.faults .begin (w.uses .begin) = none →
      (∀ e failure events,
        (body (s.clock w.clockReads)).run.run s w.clockRead.begun = (.answered (.error e), w') →
        s.faults .rollback (w'.uses .rollback) = some (.fails failure events) →
        (op.perform s sanitizer w).1 = .answered (.error e)) ∧
      (∀ settled failure events,
        (body (s.clock w.clockReads)).run.run s w.clockRead.begun = (.answered (.ok settled), w') →
        s.faults .commit (w'.uses .commit) = some (.fails failure events) →
        (op.perform s sanitizer w).1 = .answered (.error failure))) ∧
    (∀ (ops : List Operation) (w : World) (t : Tables), w.store.Free t →
      let ran := performAll s sanitizer ops w
      let kept := successes s sanitizer ops w
      let again := performAll (.serving (kept.flatMap (·.times)) (kept.flatMap (·.ids))) sanitizer
        (kept.map (·.op)) { World.initial with store := w.store }
      kept.map (fun k => (k.op, k.reply)) =
        (ops.zip ran.1).filterMap (fun (op, outcome) => outcome.reply?.map (op, ·)) ∧
      again.1 = kept.map (fun k => .answered (.ok k.reply)) ∧
      again.2.store = ran.2.store ∧ ran.2.store.isLocked = false) := by
  refine ⟨fun op w t hfree => ⟨?_, fun hfails => ?_, fun reply hok hmutation => ?_⟩,
    fun op body w w' t hplan hfree hbegin => ⟨fun e failure events hbody hrollback => ?_,
      fun settled failure events hbody hcommit => ?_⟩,
    fun ops w t hfree => ⟨successes_eq s sanitizer ops w, ?_⟩⟩
  · obtain ⟨t', hfree'⟩ := perform_free s sanitizer op hfree
    exact hfree' ▸ rfl
  · exact congrArg Store.tables (perform_of_fails s sanitizer op hfree hfails)
  · exact committed_of_ok s sanitizer op hfree hmutation hok
  · exact perform_of_error hplan hfree hbegin hbody hrollback
  · exact perform_of_commit_fails hplan hfree hbegin hbody hcommit
  · obtain ⟨hanswers, hstore⟩ := performAll_successes s sanitizer ops hfree
    obtain ⟨t', hfree'⟩ := performAll_free s sanitizer ops hfree
    exact ⟨hanswers, hstore, hfree' ▸ rfl⟩

end Weblog
