import Weblog.Proofs.Log.Truth

/-!
# When operations report

The body of a transaction reports a transition when all that it asks of the store has succeeded
(`Script.ReportsLast`), so that nothing but the commit can fail after it. What makes categories and
links reports nothing there (`Task.Silent`); its transitions are reported when the transaction is
over. `Operation.plan_reportsLast` says so of every operation.
-/

namespace Weblog

variable {α β : Type}

/-! ## Scripts that report at their end -/

/-- The script reports only events of some kind, and only at its end, when nothing can fail any
more. -/
def Script.ReportsLast (ok : Event → Prop) : Script (Except Error α) → Prop
  | .done _ => True
  | .readClock _ => False
  | .takeId next => ∀ id, (next id).ReportsLast ok
  | .report e rest => ok e ∧ ∃ a, rest = .done (.ok a)
  | .ask _ next =>
    (∀ e, next (.error e) = .done (.error e)) ∧ ∀ answer, (next (.ok answer)).ReportsLast ok

namespace Task

def ReportsLast (ok : Event → Prop) (x : Task α) : Prop :=
  Script.ReportsLast ok x.run

/-- The task reports nothing. -/
def Silent (x : Task α) : Prop :=
  x.ReportsLast fun _ => False

namespace ReportsLast

variable {ok : Event → Prop}

theorem pure (a : α) : ReportsLast ok (pure a : Task α) :=
  trivial

theorem throw (e : Error) : ReportsLast ok (throw e : Task α) :=
  trivial

theorem ofExcept (result : Except Error α) : ReportsLast ok (Task.ofExcept result) :=
  trivial

theorem takeId : ReportsLast ok Task.takeId :=
  fun _ => trivial

theorem ask (a : Access) : ReportsLast ok (Task.ask a) :=
  ⟨fun _ => rfl, fun _ => trivial⟩

theorem call (c : Call) : ReportsLast ok (Task.call c) :=
  ask _

theorem query (q : Query) : ReportsLast ok (Task.query q) :=
  ask _

theorem require (e : Error) (a? : Option α) : ReportsLast ok (Task.require e a?) := by
  cases a? with
  | none => exact throw e
  | some a => exact pure a

theorem report {e : Event} (h : ok e) (a : α) :
    ReportsLast ok (do Task.report e; return a : Task α) :=
  ⟨h, a, rfl⟩

theorem map {x : Task α} (f : α → β) (hx : x.ReportsLast ok) : (f <$> x).ReportsLast ok := by
  unfold ReportsLast at hx ⊢
  rw [Task.run_map]
  generalize x.run = script at hx
  induction script with
  | done result => exact trivial
  | readClock next ih => exact hx
  | takeId next ih => exact fun id => ih id (hx id)
  | report e rest ih =>
    obtain ⟨hok, a, rfl⟩ := hx
    exact ⟨hok, f a, rfl⟩
  | ask a next ih =>
    obtain ⟨herror, hnext⟩ := hx
    refine ⟨fun e => ?_, fun answer => ih _ (hnext answer)⟩
    change (next (.error e)).bind _ = _
    rw [herror]
    rfl

theorem bind {x : Task α} {f : α → Task β} (hx : x.Silent) (hf : ∀ a, (f a).ReportsLast ok) :
    (x >>= f).ReportsLast ok := by
  unfold Silent ReportsLast at hx
  unfold ReportsLast at hf ⊢
  rw [Task.run_bind]
  generalize x.run = script at hx
  induction script with
  | done result =>
    cases result with
    | ok a => exact hf a
    | error e => exact trivial
  | readClock next ih => exact hx
  | takeId next ih => exact fun id => ih id (hx id)
  | report e rest ih => exact hx.1.elim
  | ask a next ih =>
    obtain ⟨herror, hnext⟩ := hx
    refine ⟨fun e => ?_, fun answer => ih _ (hnext answer)⟩
    change (next (.error e)).bind _ = _
    rw [herror]
    rfl

end ReportsLast

/-- What reports nothing reports only events of any kind. -/
theorem Silent.mono {x : Task α} {ok : Event → Prop} (hx : x.Silent) : x.ReportsLast ok := by
  unfold Silent ReportsLast at hx
  unfold ReportsLast
  generalize x.run = script at hx
  induction script with
  | done result => exact trivial
  | readClock next ih => exact hx
  | takeId next ih => exact fun id => ih id (hx id)
  | report e rest ih => exact hx.1.elim
  | ask a next ih => exact ⟨hx.1, fun answer => ih _ (hx.2 answer)⟩

end Task

/-! ## Bodies of transactions -/

/-- The event is not one of those that are reported when a transaction is over. -/
def Event.PrecedesCommit (e : Event) : Prop :=
  e.followsCommit = false

namespace Posts

theorem silent_lockPost (id : Uuid) : (lockPost id).Silent :=
  .bind (.call _) fun _ => .require _ _

theorem silent_lockLatest (post : Uuid) : (lockLatest post).Silent :=
  .bind (.call _) fun _ => .require _ _

theorem silent_createIn (title content : String) (now : Instant) :
    (createIn title content now).Silent :=
  .bind .takeId fun _ => .bind (.call _) fun _ => .bind .takeId fun _ => .bind (.call _) fun _ =>
    .bind (.call _) fun _ => .pure _

theorem reportsLast_updateIn (id : Uuid) (title content : Option String) (now : Instant) :
    (updateIn id title content now).ReportsLast Event.PrecedesCommit := by
  refine .bind (silent_lockPost id) fun post => .bind (silent_lockLatest id) fun latest => ?_
  cases latest.revise (title.getD latest.title) (content.getD latest.content) now with
  | amended draft => exact .bind (.call _) fun _ => .report (by rfl) _
  | superseded next =>
    exact .bind .takeId fun _ => .bind (.call _) fun _ => .bind (.call _) fun _ =>
      .report (by rfl) _

theorem reportsLast_publishIn (id : Uuid) (now : Instant) :
    (publishIn id now).ReportsLast Event.PrecedesCommit :=
  .bind (silent_lockPost id) fun _ => .bind (silent_lockLatest id) fun _ => .bind (.ofExcept _)
    fun _ => .bind (.call _) fun _ => .bind (.call _) fun _ => .report (by rfl) _

theorem reportsLast_deleteDraftIn (id : Uuid) (now : Instant) :
    (deleteDraftIn id now).ReportsLast Event.PrecedesCommit :=
  .bind (silent_lockPost id) fun _ => .bind (silent_lockLatest id) fun _ => .bind (.ofExcept _)
    fun _ => .bind (.call _) fun _ => .bind (.call _) fun _ => .bind (.call _) fun _ =>
      .report (by rfl) ()

theorem silent_get (id : Uuid) : (get id).Silent :=
  .bind (.query _) fun _ => .bind (.require _ _) fun _ => .bind (.query _) fun _ => .pure _

theorem silent_getVersion (id : Uuid) : (getVersion id).Silent :=
  .bind (.query _) fun _ => .require _ _

end Posts

namespace Categories

theorem silent_createIn (name : String) (now : Instant) : (createIn name now).Silent := by
  refine .bind (.call _) fun other => ?_
  split
  · exact .throw _
  · exact .bind .takeId fun _ => .bind (.call _) fun _ => .pure _

theorem reportsLast_renameIn (id : Uuid) (name : String) (now : Instant) :
    (renameIn id name now).ReportsLast Event.PrecedesCommit := by
  refine .bind (.call _) fun locked => .bind (.require _ _) fun category => ?_
  split
  · exact .throw _
  · refine .bind (.call _) fun other => ?_
    split
    · exact .throw _
    · exact .bind (.call _) fun _ => .report (by rfl) _

theorem silent_attachIn (r : AttachCategories) (now : Instant) : (attachIn r now).Silent := by
  refine .bind (.call _) fun version => .bind (.require _ _) fun _ => .bind (.call _)
    fun found => ?_
  dsimp only
  split
  · exact .throw _
  · exact .call _

theorem silent_get (id : Uuid) : (get id).Silent :=
  .bind (.query _) fun _ => .require _ _

end Categories

/-! ## Plans -/

/-- A plan reports transitions at the end of its transaction or after it. -/
def Plan.ReportsLast : Plan → Prop
  | .refuse _ => True
  | .look task => task.Silent
  | .change body => ∀ now, (body now).ReportsLast Event.PrecedesCommit

theorem Operation.plan_reportsLast (sanitizer : Sanitizer) (op : Operation) :
    (op.plan sanitizer).ReportsLast := by
  cases op with
  | createPost r =>
    simp only [plan]
    split
    · exact trivial
    · exact fun now => .map _ ((Posts.silent_createIn _ _ now).mono)
  | updatePost id r =>
    simp only [plan]
    split
    · exact trivial
    · exact fun now => .map _ (Posts.reportsLast_updateIn id _ _ now)
  | publishPost id => exact fun now => .map _ (Posts.reportsLast_publishIn id now)
  | deleteDraft id => exact fun now => .map _ (Posts.reportsLast_deleteDraftIn id now)
  | getPost id => exact .map _ (Posts.silent_get id)
  | getVersion id => exact .map _ (Posts.silent_getVersion id)
  | createCategory r =>
    simp only [plan]
    split
    · exact trivial
    · exact fun now => .map _ ((Categories.silent_createIn _ now).mono)
  | updateCategory id r =>
    simp only [plan]
    split
    · exact trivial
    · exact fun now => .map _ (Categories.reportsLast_renameIn id _ now)
  | getCategory id => exact .map _ (Categories.silent_get id)
  | attach r =>
    simp only [plan]
    split
    · exact trivial
    · exact fun now => .map _ ((Categories.silent_attachIn r now).mono)

end Weblog
