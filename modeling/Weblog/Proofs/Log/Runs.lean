import Weblog.Proofs.Log.Bodies

/-!
# What runs report

* `ReportsLast.run`: a body that fails reports no transition, wherever a fault struck it.
* `perform_reported`: an operation that fails reports at most a transition that precedes its commit,
  and none if the commit is not struck.
* `transitions_reported`: the law of whole runs, and `draft_amended_in_vain`, where it ends.
-/

namespace Weblog

variable {α : Type}

/-! ## Reports -/

/-- Faults do not report transitions themselves. -/
def Surroundings.Discreet (s : Surroundings) : Prop :=
  ∀ m n e events, s.faults m n = some (.fails e events) → ∀ x ∈ events, x.isTransition = false

namespace World

/-- The transitions that were reported from one world to a later one are of some kind. -/
def Reported (ok : Event → Prop) (w w' : World) : Prop :=
  ∃ log, w'.events = log ++ w.events ∧ ∀ e ∈ log, e.isTransition = true → ok e

/-- No transition was reported. -/
def Quiet (w w' : World) : Prop :=
  Reported (fun _ => False) w w'

variable {ok ok' : Event → Prop} {w w' w'' : World}

theorem Reported.of_eq (h : w'.events = w.events) : Reported ok w w' :=
  ⟨[], h, by simp⟩

theorem Reported.mono (h : Reported ok w w') (hok : ∀ e, ok e → ok' e) : Reported ok' w w' := by
  obtain ⟨log, hevents, hlog⟩ := h
  exact ⟨log, hevents, fun e he htransition => hok e (hlog e he htransition)⟩

theorem Reported.trans (h : Reported ok w w') (h' : Reported ok w' w'') : Reported ok w w'' := by
  obtain ⟨log, hevents, hlog⟩ := h
  obtain ⟨log', hevents', hlog'⟩ := h'
  refine ⟨log' ++ log, by rw [hevents', hevents, List.append_assoc], fun e he => ?_⟩
  rcases List.mem_append.mp he with he | he
  · exact hlog' e he
  · exact hlog e he

theorem Quiet.reported (h : Quiet w w') : Reported ok w w' :=
  Reported.mono h fun _ => False.elim

theorem quiet_fail {s : Surroundings} (hs : s.Discreet) {m : Method} {n : Nat} {e : Error}
    {events : List Event} (hfault : s.faults m n = some (.fails e events)) (w : World)
    (a : Access) :
    Quiet w (w.fail a events) := by
  refine ⟨events.reverse, by cases a <;> rfl, fun x hx htransition => ?_⟩
  have hdiscreet := hs m n e events hfault x (List.mem_reverse.mp hx)
  rw [hdiscreet] at htransition
  cases htransition

end World

/-! ## Scripts -/

section

variable {s : Surroundings} (hs : s.Discreet) {ok : Event → Prop}

include hs

/-- What is asked of the store stops the script or is answered, with an error if a fault strikes it;
no transition is reported then. -/
theorem run_ask_cases (a : Access) (next : Except Error a.Answer → Script (Except Error α))
    (w : World) :
    (((Script.ask a next).run s w).1.Fails ∧ World.Quiet w ((Script.ask a next).run s w).2) ∨
      ∃ answer w', (Script.ask a next).run s w = (next answer).run s w' ∧ World.Quiet w w' ∧
        (s.faults a.method (w.uses a.method) = none ∨ ∃ e, answer = .error e) := by
  cases hfault : s.faults a.method (w.uses a.method) with
  | none =>
    cases hstore : w.store.perform a with
    | error refusal =>
      simp only [Script.run, hfault, hstore]
      exact .inl ⟨Outcome.fails_pending, .of_eq rfl⟩
    | ok answered => exact .inr ⟨_, _, Script.run_ask_of_none hfault hstore, .of_eq rfl, .inl rfl⟩
  | some fault =>
    cases fault with
    | fails e events =>
      have hfail := World.quiet_fail hs hfault { w with trace := a :: w.trace } a
      have hquiet := World.Reported.trans (.of_eq rfl) hfail
      exact .inr ⟨_, _, Script.run_ask_of_fails hfault, hquiet, .inr ⟨e, rfl⟩⟩
    | panics =>
      rw [Script.run_ask_of_panics hfault]
      exact .inl ⟨Outcome.fails_panicked _, .of_eq rfl⟩
    | hangs =>
      rw [Script.run_ask_of_hangs hfault]
      exact .inl ⟨Outcome.fails_pending, .of_eq rfl⟩

/-- A body reports only what it may. If it fails it reports no transition, because it fails before
its end. -/
theorem ReportsLast.run {x : Script (Except Error α)} (hx : x.ReportsLast ok) (w : World) :
    World.Reported ok w (x.run s w).2 ∧ ((x.run s w).1.Fails → World.Quiet w (x.run s w).2) := by
  induction x generalizing w with
  | done result => exact ⟨.of_eq rfl, fun _ => .of_eq rfl⟩
  | readClock next ih => exact hx.elim
  | takeId next ih => exact ih (s.ids w.idsUsed) (hx _) { w with idsUsed := w.idsUsed + 1 }
  | report e rest ih =>
    obtain ⟨hok, a, rfl⟩ := hx
    refine ⟨⟨[e], rfl, ?_⟩, fun hfails => absurd rfl (hfails a)⟩
    intro e' he' _
    exact List.mem_singleton.mp he' ▸ hok
  | ask a next ih =>
    obtain ⟨herror, hnext⟩ := hx
    rcases run_ask_cases hs a next w with ⟨-, hquiet⟩ | ⟨answer, w', hrun, hquiet, -⟩
    · exact ⟨hquiet.reported, fun _ => hquiet⟩
    · rw [hrun]
      cases answer with
      | error e =>
        rw [herror]
        exact ⟨hquiet.reported, fun _ => hquiet⟩
      | ok answer =>
        obtain ⟨hreported, hfails⟩ := ih (.ok answer) (hnext answer) w'
        exact ⟨hquiet.reported.trans hreported, fun h => World.Reported.trans hquiet (hfails h)⟩

/-- The end of a transaction reports no transition. -/
theorem quiet_finish (result : Except Error α) (w : World) :
    World.Quiet w ((Task.finish result).run.run s w).2 := by
  cases result with
  | ok a =>
    rw [Task.run_finish_ok]
    rcases run_ask_cases hs _ _ w with ⟨-, hquiet⟩ | ⟨answer, w', hrun, hquiet, -⟩
    · exact hquiet
    · rw [hrun]
      cases answer <;> exact hquiet
  | error e =>
    rw [Task.run_finish_error]
    rcases run_ask_cases hs _ _ w with ⟨-, hquiet⟩ | ⟨answer, w', hrun, hquiet, -⟩
    · exact hquiet
    · rw [hrun]
      cases answer with
      | ok u => exact hquiet
      | error failure =>
        refine World.Reported.trans hquiet ⟨[.rollbackFailed failure e], rfl, ?_⟩
        intro x hx htransition
        rw [List.mem_singleton.mp hx] at htransition
        cases htransition

omit hs in
theorem countP_commit_of_calls {calls : List Access} (hcalls : ∀ a ∈ calls, a.IsCall) :
    calls.countP (·.method = .commit) = 0 := by
  refine List.countP_eq_zero.mpr fun a ha => ?_
  obtain ⟨c, rfl⟩ := hcalls a ha
  cases c <;> exact of_decide_eq_false rfl

/-- A transaction that fails reports at most what its body may report, and reports no transition
unless its commit is struck. -/
theorem reported_transact {body : Task α} (honly : body.Only Access.IsCall)
    (hbody : body.ReportsLast ok) {w : World} {t : Tables} (hfree : w.store.Free t) :
    let ran := (Task.transact body).run.run s w
    World.Reported ok w ran.2 ∧
      (ran.1.Fails → s.faults .commit (w.uses .commit) = none → World.Quiet w ran.2) := by
  cases hbegin : s.faults .begin (w.uses .begin) with
  | some fault =>
    -- nothing was begun
    have hquiet : World.Quiet w ((Task.transact body).run.run s w).2 := by
      rw [Task.run_transact]
      rcases run_ask_cases hs _ _ w with ⟨-, hquiet⟩ | ⟨answer, w', hrun, hquiet, hanswer⟩
      · exact hquiet
      · rw [hrun]
        rcases hanswer with hnone | ⟨e, rfl⟩
        · cases hbegin.symm.trans hnone
        · exact hquiet
    exact ⟨hquiet.reported, fun _ _ => hquiet⟩
  | none =>
    have hat : World.At (Store.Working t) w.idsUsed w.events w.begun ⟨t, 0, []⟩ := by
      refine ⟨?_, rfl, rfl⟩
      rw [World.begun, hfree]
      exact Store.Working.begin t
    obtain ⟨-, ⟨calls, hcalls, htrace⟩, hends⟩ :=
      Script.run_only s .epoch (answering_working t) honly hat
    obtain ⟨hreported, hquiet⟩ := ReportsLast.run hs hbody w.begun
    rw [run_transact_begun hfree hbegin, Script.run_bind]
    generalize body.run.run s w.begun = ran at htrace hends hreported hquiet ⊢
    obtain ⟨o, w₁⟩ := ran
    rcases o with ⟨e | a⟩ | m | _
    · -- the body failed and is rolled back
      have hquiet := World.Reported.trans (hquiet (Outcome.fails_error e))
        (quiet_finish hs (.error e : Except Error α) w₁)
      exact ⟨World.Quiet.reported hquiet, fun _ _ => hquiet⟩
    · -- the body succeeded, so only its commit can fail
      refine ⟨hreported.trans (quiet_finish hs _ w₁).reported, fun hfails hcommit => ?_⟩
      rcases hends with ⟨-, -, hat₁⟩ | ⟨-, hfailed, -⟩
      · obtain ⟨-, hlast, ⟨-, hdone⟩ | ⟨hstruck, -, -⟩⟩ :=
          run_finish_cases (s := s) hat₁.store (.ok a : Except Error α)
        · exact absurd (congrArg Prod.fst hdone) (hfails a)
        · rw [hlast, Access.ending, Surroundings.calm_single_iff] at hstruck
          refine absurd ?_ hstruck
          -- the body made calls only
          have huses : w₁.uses .commit = w.uses .commit := by
            rw [World.uses, htrace, List.countP_append, countP_commit_of_calls hcalls, Nat.zero_add]
            rfl
          exact (congrArg (s.faults .commit) huses).trans hcommit
      · exact absurd rfl (hfailed a)
    · exact ⟨hreported, fun _ _ => hquiet (Outcome.fails_panicked m)⟩
    · exact ⟨hreported, fun _ _ => hquiet Outcome.fails_pending⟩

/-! ## Operations -/

omit hs in
/-- Of what failed nothing is settled. -/
theorem Plan.settle_of_fails {ran : Outcome (Except Error Settled) × World}
    (h : (Plan.settle ran).1.Fails) : ran.1.Fails ∧ (Plan.settle ran).2 = ran.2 := by
  rcases ran with ⟨⟨e | settled⟩ | m | _, w⟩
  · exact ⟨Outcome.fails_error e, rfl⟩
  · exact absurd rfl (h settled.reply)
  · exact ⟨Outcome.fails_panicked m, rfl⟩
  · exact ⟨Outcome.fails_pending, rfl⟩

/-- An operation that fails reports at most a transition that precedes its commit, and none if its
commit is not struck. -/
theorem perform_reported (sanitizer : Sanitizer) (op : Operation) {w : World} {t : Tables}
    (hfree : w.store.Free t) (hfails : (op.perform s sanitizer w).1.Fails) :
    World.Reported Event.PrecedesCommit w (op.perform s sanitizer w).2 ∧
      (s.faults .commit (w.uses .commit) = none → World.Quiet w (op.perform s sanitizer w).2) := by
  have hsound := op.plan_sound sanitizer
  have hlast := op.plan_reportsLast sanitizer
  unfold Operation.perform Script.perform at hfails ⊢
  rw [op.task_eq_plan] at hfails ⊢
  generalize op.plan sanitizer = plan at hsound hlast hfails ⊢
  -- abandoning a transaction reports nothing
  have habandon : ∀ {ok : Event → Prop} {w' : World}, World.Reported ok w w' →
      World.Reported ok w w'.abandon := id
  cases plan with
  | refuse e => exact ⟨.of_eq rfl, fun _ => .of_eq rfl⟩
  | look task =>
    have hquiet : World.Quiet w (task.run.run s w).2 := (ReportsLast.run hs hlast w).1
    exact ⟨habandon hquiet.reported, fun _ => habandon hquiet⟩
  | change body =>
    have htransact := reported_transact hs (hsound (s.clock w.clockReads))
      (hlast (s.clock w.clockReads)) (w := { w with clockReads := w.clockReads + 1 }) hfree
    simp only [Plan.run_change] at hfails ⊢
    obtain ⟨hfails', hsame⟩ := Plan.settle_of_fails hfails
    rw [hsame]
    exact ⟨habandon htransact.1, fun hcommit => habandon (htransact.2 hfails' hcommit)⟩

end

/-! ## The law -/

/-- An operation succeeded, and an event is true of what it committed. -/
def Event.Committed (e : Event) (op : Operation) (w : World)
    (ran : Outcome (Except Error Reply) × World) : Prop :=
  ∃ reply, ran.1 = .answered (.ok reply) ∧
    e.TrueOf w.store.tables ran.2.store.tables op reply

/-- An operation that succeeds reports just what it committed. -/
theorem perform_reports_of_ok (s : Surroundings) (sanitizer : Sanitizer) (op : Operation)
    {w : World} {t : Tables} (hfree : w.store.Free t) (hwf : t.WellFormed) {reply : Reply}
    (hok : (op.perform s sanitizer w).1 = .answered (.ok reply)) :
    ∃ log, (op.perform s sanitizer w).2.events = log ++ w.events ∧
      ∀ e : Event, e ∈ log ↔ e.Committed op w (op.perform s sanitizer w) := by
  have htables : w.store.tables = t := congrArg Store.tables hfree
  cases perform_cases s sanitizer op hfree with
  | struck _ hfails _ => exact absurd hok (hfails reply)
  | done _ hanswer hstore _ _ hevents =>
    have hstep := effect_transition hwf (Outcome.answered.inj (hanswer.symm.trans hok))
    refine ⟨_, hevents, fun e => ?_⟩
    rw [← hstep.reports_iff hwf, Event.Committed, htables, hstore]
    constructor
    · exact fun htrue => ⟨reply, hok, htrue⟩
    · rintro ⟨reply', hok', htrue⟩
      cases hok.symm.trans hok'
      exact htrue

/-- **The log of transitions.** When faults do not report transitions themselves, then after any run
and whatever is done next: each transition that the operation committed is in its log. A transition
in its log was committed, if it is one of those that are reported when the transaction is over or if
the commit of the operation is not struck. -/
theorem transitions_reported (s : Surroundings) (hs : s.Discreet) (sanitizer : Sanitizer)
    (ops : List Operation) (op : Operation) :
    let w := (performAll s sanitizer ops World.initial).2
    let ran := op.perform s sanitizer w
    ∃ log, ran.2.events = log ++ w.events ∧ ∀ e : Event, e.isTransition = true →
      (e.Committed op w ran → e ∈ log) ∧
      (e.followsCommit = true ∨ s.faults .commit (w.uses .commit) = none →
        (e ∈ log ↔ e.Committed op w ran)) := by
  intro w ran
  obtain ⟨t, hfree, hwf⟩ := performAll_wellFormed s sanitizer ops (w := World.initial) rfl .empty
  cases hreply : ran.1.reply? with
  | some reply =>
    obtain ⟨log, hevents, hlog⟩ :=
      perform_reports_of_ok s sanitizer op hfree hwf (Outcome.eq_of_reply? hreply)
    exact ⟨log, hevents, fun e _ => ⟨(hlog e).mpr, fun _ => hlog e⟩⟩
  | none =>
    have hfails := Outcome.fails_of_reply? hreply
    have hnever : ∀ e : Event, ¬ e.Committed op w ran := by
      rintro e ⟨reply, hok, -⟩
      exact hfails reply hok
    obtain ⟨⟨log, hevents, hlog⟩, hquiet⟩ := perform_reported hs sanitizer op hfree hfails
    refine ⟨log, hevents, fun e htransition => ⟨fun h => (hnever e h).elim, fun hcase => ?_⟩⟩
    refine iff_of_false (fun he => ?_) (hnever e)
    rcases hcase with hfollows | hcommit
    · have hprecedes : e.followsCommit = false := hlog e he htransition
      rw [hfollows] at hprecedes
      cases hprecedes
    · obtain ⟨log', hevents', hlog'⟩ := hquiet hcommit
      obtain rfl := List.append_cancel_right (hevents.symm.trans hevents')
      exact hlog' e he htransition

/-! ## A commit that fails -/

/-- Nothing goes wrong except that the second commit fails. -/
def secondCommitFails : Surroundings where
  clock _ := .epoch
  ids := .ofNat
  faults
    | .commit, 1 => some (.fails (.internal "injected fault") [])
    | _, _ => none

theorem discreet_secondCommitFails : secondCommitFails.Discreet := by
  intro m n e events hfault x hx
  unfold secondCommitFails at hfault
  dsimp only at hfault
  split at hfault
  · cases hfault
    cases hx
  · cases hfault

/-- A category that could not be committed is not reported. -/
theorem category_unreported :
    let w := (performAll secondCommitFails .identity [.createPost ⟨"title", "text"⟩] .initial).2
    let ran := (Operation.createCategory ⟨"name"⟩).perform secondCommitFails .identity w
    ran.1.Fails ∧ ∃ log, ran.2.events = log ++ w.events ∧ ∀ id, .categoryCreated id ∉ log := by
  intro w ran
  have hfails : ran.1.Fails := Outcome.fails_of_reply? (by decide +kernel)
  obtain ⟨log, hevents, hlog⟩ := transitions_reported secondCommitFails discreet_secondCommitFails
    .identity [.createPost ⟨"title", "text"⟩] (.createCategory ⟨"name"⟩)
  refine ⟨hfails, log, hevents, fun id he => ?_⟩
  obtain ⟨reply, hok, -⟩ := ((hlog (.categoryCreated id) rfl).2 (.inl rfl)).mp he
  exact hfails reply hok

/-- An edit that could not be committed is reported all the same, though it leaves the store as it
was. -/
theorem draft_amended_in_vain :
    let w := (performAll secondCommitFails .identity [.createPost ⟨"title", "text"⟩] .initial).2
    let edit := Operation.updatePost (.ofNat 0) ⟨none, some "new text"⟩
    let ran := edit.perform secondCommitFails .identity w
    let e := Event.draftAmended (.ofNat 0) (.ofNat 1) 1
    secondCommitFails.Discreet ∧ e.isTransition = true ∧ ran.2.events = e :: w.events ∧
      ran.2.store = w.store ∧ ¬ e.Committed edit w ran := by
  intro w edit ran e
  obtain ⟨t, hfree⟩ := performAll_free secondCommitFails .identity
    [.createPost ⟨"title", "text"⟩] (w := World.initial) rfl
  have hfails : ran.1.Fails := Outcome.fails_of_reply? (by decide +kernel)
  have hevents : ran.2.events = e :: w.events := by decide +kernel
  have hstore := perform_of_fails secondCommitFails .identity edit hfree hfails
  refine ⟨discreet_secondCommitFails, rfl, hevents, hstore.trans hfree.symm, ?_⟩
  rintro ⟨reply, hok, -⟩
  exact hfails reply hok

end Weblog
