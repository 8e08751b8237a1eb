import Weblog.Proofs.Transact
import Weblog.Service.Operation

/-!
# How operations are done

Every operation is done in one of three ways (`Plan`): it is refused before the store is asked, it
only looks, or it reads the clock and makes one transaction.

* `task_eq_plan`: the service carries out the plan of every operation.
* `plan_sound`: what only looks asks the store with queries, and a transaction with calls.
-/

namespace Weblog

variable {α β : Type}

theorem Task.transact_map (f : α → β) (body : Task α) :
    Task.transact (f <$> body) = f <$> Task.transact body := by
  have hfinish : ∀ result : Except Error α,
      (Task.finish (result.map f)).run = (f <$> Task.finish result).run := fun result => by
    rw [Task.run_map]
    cases result with
    | ok a =>
      simp only [Except.map, Task.run_finish_ok, Script.bind]
      congr 1
      funext answer
      cases answer <;> rfl
    | error e =>
      simp only [Except.map, Task.run_finish_error, Script.bind]
      congr 1
      funext answer
      cases answer <;> rfl
  apply ExceptT.ext
  rw [Task.run_map, Task.run_transact, Task.run_transact]
  simp only [Script.bind]
  congr 1
  funext answer
  cases answer with
  | error e => rfl
  | ok u =>
    simp only [Task.run_map, Script.bind_assoc, Script.bind, hfinish]

/-! ## Plans -/

/-- What is said of a change that was made: the reply, and perhaps an event. -/
structure Settled where
  reply : Reply
  event? : Option Event

/-- How an operation is done. -/
inductive Plan where
  /-- It is refused. -/
  | refuse (e : Error)
  /-- It only looks. -/
  | look (task : Task Reply)
  /-- It is one transaction, before which the clock is read. -/
  | change (body : Instant → Task Settled)

/-- The task that carries a plan out. -/
def Plan.task : Plan → Task Reply
  | .refuse e => throw e
  | .look task => task
  | .change body => do
    let now ← Task.readClock
    let settled ← Task.transact (body now)
    match settled.event? with
    | none => return settled.reply
    | some e =>
      Task.report e
      return settled.reply

/-- How the service does an operation. -/
def Operation.plan (sanitizer : Sanitizer) : Operation → Plan
  | createPost r =>
    match refuseBlank (blankFields
      [("title", sanitizer r.title), ("content", sanitizer r.content)]) with
    | .error e => .refuse e
    | .ok () => .change fun now => (fun v => ⟨.post (.of v), none⟩) <$>
        Posts.createIn (sanitizer r.title) (sanitizer r.content) now
  | updatePost id r =>
    if (cleanOption sanitizer r.title).isNone ∧ (cleanOption sanitizer r.content).isNone then
      .refuse (.invalidInput "title or content is required")
    else .change fun now => (fun v => ⟨.post (.of v), none⟩) <$>
      Posts.updateIn id (cleanOption sanitizer r.title) (cleanOption sanitizer r.content) now
  | publishPost id => .change fun now => (fun v => ⟨.published (.of v now), none⟩) <$>
      Posts.publishIn id now
  | deleteDraft id => .change fun now => (fun () => ⟨.done, none⟩) <$> Posts.deleteDraftIn id now
  | getPost id => .look (.detail <$> Posts.get id)
  | getVersion id => .look (.version <$> Posts.getVersion id)
  | createCategory r =>
    match Categories.cleanName sanitizer r with
    | .error e => .refuse e
    | .ok name => .change fun now => (fun c => ⟨.category c, some (.categoryCreated c.id)⟩) <$>
        Categories.createIn name now
  | updateCategory id r =>
    match Categories.cleanName sanitizer r with
    | .error e => .refuse e
    | .ok name => .change fun now => (fun c => ⟨.category c, none⟩) <$>
        Categories.renameIn id name now
  | getCategory id => .look (.category <$> Categories.get id)
  | attach r =>
    match r.validate with
    | .error e => .refuse e
    | .ok () => .change fun now => (fun inserted =>
        ⟨.done, some (.categoriesAttached r.version r.categories.length inserted)⟩) <$>
        Categories.attachIn r now

namespace Operation

/-- The service carries its plans out. -/
theorem task_eq_plan (sanitizer : Sanitizer) (op : Operation) :
    op.task sanitizer = (op.plan sanitizer).task := by
  cases op with
  | createPost r =>
    simp only [task, plan, Posts.create]
    cases refuseBlank (blankFields
      [("title", sanitizer r.title), ("content", sanitizer r.content)]) with
    | error e => rfl
    | ok u =>
      simp only [Plan.task, Task.transact_map, map_bind, bind_map_left]
      rfl
  | updatePost id r =>
    simp only [task, plan, Posts.update]
    split
    · rfl
    · simp only [Plan.task, Task.transact_map, map_bind, bind_map_left]
      rfl
  | publishPost id =>
    simp only [task, plan, Posts.publish, Plan.task, Task.transact_map, map_bind, bind_map_left]
    rfl
  | deleteDraft id =>
    simp only [task, plan, Posts.deleteDraft, Plan.task, Task.transact_map, map_bind, bind_map_left]
    rfl
  | getPost id => rfl
  | getVersion id => rfl
  | createCategory r =>
    simp only [task, plan, Categories.create]
    cases Categories.cleanName sanitizer r with
    | error e => rfl
    | ok name =>
      simp only [Plan.task, Task.transact_map, map_bind, bind_map_left]
      rfl
  | updateCategory id r =>
    simp only [task, plan, Categories.rename]
    cases Categories.cleanName sanitizer r with
    | error e => rfl
    | ok name =>
      simp only [Plan.task, Task.transact_map, map_bind, bind_map_left]
      rfl
  | getCategory id => rfl
  | attach r =>
    simp only [task, plan, Categories.attach]
    cases r.validate with
    | error e => rfl
    | ok u =>
      simp only [Plan.task, Task.transact_map, map_bind, bind_map_left]
      rfl

end Operation

/-! ## What plans ask of the store -/

/-- A call that writes neither posts nor versions. -/
def Access.SparesPosts (a : Access) : Prop :=
  ∃ c, a = .call c ∧ ∀ t : Tables, (t.call c).2.posts = t.posts ∧ (t.call c).2.versions = t.versions

theorem Access.SparesPosts.isCall {a : Access} : a.SparesPosts → a.IsCall
  | ⟨c, h, _⟩ => ⟨c, h⟩

/-- Adding links writes nothing else. -/
theorem Tables.attach_writes (t : Tables) (links : List Link) :
    (t.attach links).2 = { t with links := (t.attach links).2.links } := by
  induction links generalizing t with
  | nil => rfl
  | cons l rest ih =>
    rw [Tables.attach]
    split
    · rfl
    · split
      · rfl
      · split
        · exact ih t
        · exact ih (t.withLink l)

theorem Tables.attach_spares (t : Tables) (links : List Link) :
    (t.attach links).2.posts = t.posts ∧ (t.attach links).2.versions = t.versions := by
  rw [attach_writes]
  exact ⟨rfl, rfl⟩

/-- A call that removes no link and writes none anew. -/
def Access.KeepsLinks (a : Access) : Prop :=
  ∃ c, a = .call c ∧ ∀ (t : Tables) key l, t.links.get? key = some l →
    (t.call c).2.links.get? key = some l

theorem Access.KeepsLinks.isCall {a : Access} : a.KeepsLinks → a.IsCall
  | ⟨c, h, _⟩ => ⟨c, h⟩

theorem Tables.attach_keeps_links (t : Tables) (links : List Link) {key : Uuid × Uuid} {l : Link}
    (hget : t.links.get? key = some l) : (t.attach links).2.links.get? key = some l := by
  induction links generalizing t with
  | nil => exact hget
  | cons l' rest ih =>
    rw [Tables.attach]
    split
    · exact hget
    · split
      · exact hget
      · split
        · exact ih t hget
        · -- the link that is added was not there
          rename_i hnew
          have hne : key ≠ (l'.version, l'.category) := by
            rintro rfl
            exact hnew (Table.contains_iff.mpr ⟨l, hget⟩)
          apply ih (t.withLink l')
          exact (Table.get?_insert _ _ _ _).trans ((if_neg hne).trans hget)

/-- Only when a version is deleted are links removed. -/
theorem Access.keepsLinks_call {c : Call} (h : match c with
      | .deleteVersion _ => False
      | _ => True) : (Access.call c).KeepsLinks := by
  refine ⟨c, rfl, fun t key l hget => ?_⟩
  cases c with
  | deleteVersion id => exact h.elim
  | attach links => exact t.attach_keeps_links links hget
  | createPost _ | createCategory _ =>
    simp only [Tables.call]
    split <;> exact hget
  | createVersion _ | updateCategory _ =>
    simp only [Tables.call]
    split
    · exact hget
    · split <;> exact hget
  | updatePost _ | updateVersion _ =>
    simp only [Tables.call]
    split <;> exact hget
  | lockPost _ | lockLatestVersion _ | lockVersion _ | lockCategory _ | findCategoryByName _
  | findCategories _ => exact hget

/-- The version that an access writes anew or deletes. -/
def Access.rewrites? : Access → Option Uuid
  | call (.updateVersion v) => some v.id
  | call (.deleteVersion id) => some id
  | _ => none

/-- What does not write versions rewrites none. -/
theorem Access.SparesPosts.rewrites_none {a : Access} (h : a.SparesPosts) : a.rewrites? = none := by
  obtain ⟨c, rfl, hspares⟩ := h
  cases c with
  | updateVersion v =>
    let unlike : Version := { v with published := if v.published = none then some .epoch else none }
    let t : Tables := Tables.empty.withVersion unlike
    have hstored : t.versions.get? v.id = some unlike := Table.get?_insert_self _ _ _
    have hwritten : (t.call (.updateVersion v)).2.versions.get? v.id = some v := by
      simp only [Tables.call, hstored]
      exact Table.get?_insert_self _ _ _
    rw [(hspares t).2, hstored] at hwritten
    have hpublished : unlike.published = v.published := by rw [Option.some.inj hwritten]
    simp only [unlike] at hpublished
    split at hpublished <;> simp_all
  | deleteVersion id =>
    let v : Version :=
      { id, post := id, number := 1, title := "", content := "", published := none
        created := .epoch }
    let t : Tables := Tables.empty.withVersion v
    have hstored : t.versions.get? id = some v := Table.get?_insert_self _ _ _
    have hdeleted : (t.call (.deleteVersion id)).2.versions.get? id = none := by
      simp only [Tables.call, Table.contains, hstored, Option.isSome_some, if_true]
      exact (Table.get?_erase _ _ _).trans (if_pos rfl)
    rw [(hspares t).2, hstored] at hdeleted
    cases hdeleted
  | createPost _ | updatePost _ | lockPost _ | createVersion _ | lockLatestVersion _
  | lockVersion _ | createCategory _ | updateCategory _ | lockCategory _ | findCategoryByName _
  | findCategories _ | attach _ => rfl

theorem Access.SparesPosts.keepsLinks {a : Access} (h : a.SparesPosts) : a.KeepsLinks := by
  have hrewrites := h.rewrites_none
  obtain ⟨c, rfl⟩ := h.isCall
  cases c with
  | deleteVersion id => cases hrewrites
  | createPost _ | updatePost _ | lockPost _ | createVersion _ | updateVersion _
  | lockLatestVersion _ | lockVersion _ | createCategory _ | updateCategory _ | lockCategory _
  | findCategoryByName _ | findCategories _ | attach _ => exact keepsLinks_call trivial

namespace Task

theorem only_query (q : Query) : (query q).Only Access.IsQuery :=
  .ask ⟨q, rfl⟩

theorem only_call (c : Call) : (call c).Only Access.IsCall :=
  .ask ⟨c, rfl⟩

theorem only_call_keeps {c : Call} (h : match c with
      | .deleteVersion _ => False
      | _ => True) : (call c).Only Access.KeepsLinks :=
  .ask (Access.keepsLinks_call h)

/-- The calls that the operations on categories make write neither posts nor versions. -/
theorem only_call_spares {c : Call} (h : match c with
      | .lockVersion _ | .lockCategory _ | .findCategoryByName _ | .findCategories _
      | .createCategory _ | .updateCategory _ | .attach _ => True
      | _ => False) : (call c).Only Access.SparesPosts := by
  refine .ask ⟨c, rfl, fun t => ?_⟩
  cases c with
  | lockVersion id | lockCategory id | findCategoryByName name | findCategories ids =>
    exact ⟨rfl, rfl⟩
  | createCategory c =>
    simp only [Tables.call]
    split <;> exact ⟨rfl, rfl⟩
  | updateCategory c =>
    simp only [Tables.call]
    split
    · exact ⟨rfl, rfl⟩
    · split <;> exact ⟨rfl, rfl⟩
  | attach links => exact t.attach_spares links
  | createPost _ | updatePost _ | lockPost _ | createVersion _ | updateVersion _
  | lockLatestVersion _ | deleteVersion _ => exact h.elim

end Task

namespace Posts

theorem only_lockPost (id : Uuid) : (lockPost id).Only Access.KeepsLinks :=
  .bind (Task.only_call_keeps trivial) fun _ => .require _ _

theorem only_lockLatest (post : Uuid) : (lockLatest post).Only Access.KeepsLinks :=
  .bind (Task.only_call_keeps trivial) fun _ => .require _ _

theorem only_createIn (title content : String) (now : Instant) :
    (createIn title content now).Only Access.KeepsLinks :=
  .bind .takeId fun _ => .bind (Task.only_call_keeps trivial) fun _ => .bind .takeId fun _ =>
    .bind (Task.only_call_keeps trivial) fun _ => .bind (Task.only_call_keeps trivial) fun _ => .pure _

theorem only_updateIn (id : Uuid) (title content : Option String) (now : Instant) :
    (updateIn id title content now).Only Access.KeepsLinks := by
  refine .bind (only_lockPost id) fun post => .bind (only_lockLatest id) fun latest => ?_
  cases latest.revise (title.getD latest.title) (content.getD latest.content) now with
  | amended draft =>
    exact .bind (Task.only_call_keeps trivial) fun _ => .bind (.report _) fun _ => .pure _
  | superseded next =>
    exact .bind .takeId fun _ => .bind (Task.only_call_keeps trivial) fun _ =>
      .bind (Task.only_call_keeps trivial) fun _ => .bind (.report _) fun _ => .pure _

theorem only_publishIn (id : Uuid) (now : Instant) :
    (publishIn id now).Only Access.KeepsLinks :=
  .bind (only_lockPost id) fun _ => .bind (only_lockLatest id) fun _ => .bind (.ofExcept _)
    fun _ => .bind (Task.only_call_keeps trivial) fun _ => .bind (Task.only_call_keeps trivial)
      fun _ => .bind (.report _) fun _ => .pure _

theorem only_deleteDraftIn (id : Uuid) (now : Instant) :
    (deleteDraftIn id now).Only Access.IsCall :=
  .bind ((only_lockPost id).mono fun _ h => h.isCall) fun _ =>
    .bind ((only_lockLatest id).mono fun _ h => h.isCall) fun _ => .bind (.ofExcept _)
      fun _ => .bind (Task.only_call _) fun _ => .bind (Task.only_call _) fun _ =>
        .bind (Task.only_call _) fun _ => .report _

theorem only_get (id : Uuid) : (get id).Only Access.IsQuery :=
  .bind (Task.only_query _) fun _ => .bind (.require _ _) fun _ => .bind (Task.only_query _)
    fun _ => .pure _

theorem only_getVersion (id : Uuid) : (getVersion id).Only Access.IsQuery :=
  .bind (Task.only_query _) fun _ => .require _ _

end Posts

namespace Categories

theorem only_createIn (name : String) (now : Instant) :
    (createIn name now).Only Access.SparesPosts := by
  refine .bind (Task.only_call_spares trivial) fun other => ?_
  have hcreate : (do
      let category := Category.new (← Task.takeId) name now
      Task.call (.createCategory category)
      return category : Task Category).Only Access.SparesPosts :=
    .bind .takeId fun _ => .bind (Task.only_call_spares trivial) fun _ => .pure _
  split
  · exact .bind (.throw _) fun _ => hcreate
  · exact hcreate

theorem only_renameIn (id : Uuid) (name : String) (now : Instant) :
    (renameIn id name now).Only Access.SparesPosts := by
  refine .bind (Task.only_call_spares trivial) fun locked => .bind (.require _ _) fun category => ?_
  have hwrite : (do
      let renamed := category.rename name now
      Task.call (.updateCategory renamed)
      Task.report (.categoryRenamed id renamed.name)
      return renamed : Task Category).Only Access.SparesPosts :=
    .bind (Task.only_call_spares trivial) fun _ => .bind (.report _) fun _ => .pure _
  have hfind : (do
      let other : Option Category ← Task.call (.findCategoryByName name)
      if other.any (·.id ≠ id) then throw (.nameTaken name)
      let renamed := category.rename name now
      Task.call (.updateCategory renamed)
      Task.report (.categoryRenamed id renamed.name)
      return renamed : Task Category).Only Access.SparesPosts := by
    refine .bind (Task.only_call_spares trivial) fun other => ?_
    split
    · exact .bind (.throw _) fun _ => hwrite
    · exact hwrite
  split
  · exact .bind (.throw _) fun _ => hfind
  · exact hfind

theorem only_attachIn (r : AttachCategories) (now : Instant) :
    (attachIn r now).Only Access.SparesPosts := by
  refine .bind (Task.only_call_spares trivial) fun version => .bind (.require _ _) fun _ =>
    .bind (Task.only_call_spares trivial) fun found => ?_
  dsimp only
  split
  · exact .bind (.throw _) fun _ => Task.only_call_spares trivial
  · exact Task.only_call_spares trivial

theorem only_get (id : Uuid) : (get id).Only Access.IsQuery :=
  .bind (Task.only_query _) fun _ => .require _ _

end Categories

/-- A plan looks only with queries and changes only with calls. -/
def Plan.Sound : Plan → Prop
  | .refuse _ => True
  | .look task => task.Only Access.IsQuery
  | .change body => ∀ now, (body now).Only Access.IsCall

/-- A plan removes no link and writes none anew. -/
def Plan.KeepsLinks : Plan → Prop
  | .refuse _ => True
  | .look task => task.Only Access.IsQuery
  | .change body => ∀ now, (body now).Only Access.KeepsLinks

theorem Plan.KeepsLinks.sound {plan : Plan} (h : plan.KeepsLinks) : plan.Sound := by
  cases plan with
  | refuse e => exact trivial
  | look task => exact h
  | change body => exact fun now => (h now).mono fun _ h => h.isCall

/-- Only the deletion of a draft removes links. -/
theorem Operation.plan_keepsLinks (sanitizer : Sanitizer) {op : Operation} (h : match op with
      | .deleteDraft _ => False
      | _ => True) : (op.plan sanitizer).KeepsLinks := by
  cases op with
  | createPost r =>
    simp only [plan]
    split
    · exact trivial
    · exact fun now => .map _ (Posts.only_createIn _ _ now)
  | updatePost id r =>
    simp only [plan]
    split
    · exact trivial
    · exact fun now => .map _ (Posts.only_updateIn id _ _ now)
  | publishPost id => exact fun now => .map _ (Posts.only_publishIn id now)
  | deleteDraft id => exact h.elim
  | getPost id => exact .map _ (Posts.only_get id)
  | getVersion id => exact .map _ (Posts.only_getVersion id)
  | createCategory r =>
    simp only [plan]
    split
    · exact trivial
    · exact fun now => .map _ ((Categories.only_createIn _ now).mono fun _ h => h.keepsLinks)
  | updateCategory id r =>
    simp only [plan]
    split
    · exact trivial
    · exact fun now => .map _ ((Categories.only_renameIn id _ now).mono fun _ h => h.keepsLinks)
  | getCategory id => exact .map _ (Categories.only_get id)
  | attach r =>
    simp only [plan]
    split
    · exact trivial
    · exact fun now => .map _ ((Categories.only_attachIn r now).mono fun _ h => h.keepsLinks)

theorem Operation.plan_sound (sanitizer : Sanitizer) (op : Operation) :
    (op.plan sanitizer).Sound := by
  cases op with
  | deleteDraft id => exact fun now => .map _ (Posts.only_deleteDraftIn id now)
  | createPost _ | updatePost _ _ | publishPost _ | getPost _ | getVersion _ | createCategory _
  | updateCategory _ _ | getCategory _ | attach _ => exact (plan_keepsLinks sanitizer trivial).sound

end Weblog
