import Weblog.Proofs.Atomicity
import Weblog.Proofs.Store.Latest
import Weblog.Proofs.Store.WellFormed

/-!
# What operations make of the tables

`Transition` lists everything that an operation can do when it succeeds: which rows it found, which
rows it wrote, what it replied and what it reported. What holds of every operation is proved case by
case from `effect_transition`; no later proof opens the bodies of the transactions.

* `effect_transition`: an effect without an error is one of the transitions.
* `performAll_stays`: what every effect keeps holds after every run, whatever faults strike it.
-/

namespace Weblog

/-! ## Calls that succeed -/

namespace Tables

variable {t t' : Tables} {u : Unit}

theorem of_createPost {p : Post} (h : t.call (.createPost p) = (.ok u, t')) :
    t.posts.get? p.id = none ∧ t' = t.withPost p := by
  simp only [call] at h
  split at h
  · cases h
  · rename_i hnew
    cases h
    exact ⟨Table.contains_eq_false_iff.mp (Bool.eq_false_iff.mpr hnew), rfl⟩

theorem of_updatePost {p stored : Post} (h : t.call (.updatePost p) = (.ok u, t'))
    (hstored : t.posts.get? p.id = some stored)
    (hp : p = { stored with current := p.current, updated := p.updated }) : t' = t.withPost p := by
  simp only [call, hstored] at h
  rw [← hp] at h
  cases h
  rfl

theorem of_createVersion {v : Version} (h : t.call (.createVersion v) = (.ok u, t')) :
    t.versions.get? v.id = none ∧ t' = t.withVersion v := by
  simp only [call] at h
  split at h
  · cases h
  · split at h
    · cases h
    · rename_i hnew
      cases h
      have hunused := mt Or.inr hnew
      exact ⟨Table.contains_eq_false_iff.mp (Bool.eq_false_iff.mpr hunused), rfl⟩

theorem of_updateVersion {v stored : Version} (h : t.call (.updateVersion v) = (.ok u, t'))
    (hstored : t.versions.get? v.id = some stored)
    (hv : v = { stored with title := v.title, content := v.content, published := v.published }) :
    t' = t.withVersion v := by
  simp only [call, hstored] at h
  rw [← hv] at h
  cases h
  rfl

theorem of_deleteVersion {id : Uuid} (h : t.call (.deleteVersion id) = (.ok u, t')) :
    t' = t.withoutVersion id := by
  simp only [call] at h
  split at h
  · cases h
    rfl
  · cases h

theorem of_createCategory {c : Category} (h : t.call (.createCategory c) = (.ok u, t')) :
    t' = t.withCategory c := by
  simp only [call] at h
  split at h
  · cases h
  · cases h
    rfl

theorem of_updateCategory {c stored : Category} (h : t.call (.updateCategory c) = (.ok u, t'))
    (hstored : t.categories.get? c.id = some stored)
    (hc : c = { stored with name := c.name, updated := c.updated }) :
    isNameTaken t.categories.rows c.name c.id = false ∧ t' = t.withCategory c := by
  simp only [call, hstored] at h
  split at h
  · cases h
  · rename_i hfree
    rw [← hc] at h
    cases h
    exact ⟨Bool.eq_false_iff.mpr hfree, rfl⟩

end Tables

/-- In well-formed tables the latest version of a post is stored under its own identifier. -/
theorem Tables.WellFormed.get?_latest {t : Tables} (hwf : t.WellFormed) {post : Uuid} {v : Version}
    (h : latestVersion? t.versions.rows post = some v) : t.versions.get? v.id = some v := by
  obtain ⟨id, hget⟩ := Table.mem_rows.mp (mem_of_latestVersion? h).1
  have hid : v.id = id := hwf.versions id v hget
  rw [hid, hget]

/-! ## Transitions -/

/-- A version with the text that an edit gives it; what the edit leaves out or leaves blank
stays. -/
def Version.edited (sanitizer : Sanitizer) (v : Version) (r : UpdatePost) : Version :=
  { v with title := (cleanOption sanitizer r.title).getD v.title
           content := (cleanOption sanitizer r.content).getD v.content }

/-- The links that a request asks for. -/
def AttachCategories.links (r : AttachCategories) (now : Instant) : List Link :=
  r.categories.map fun id => ⟨r.version, id, now⟩

/-- What an operation does when it succeeds, by what it replies, by the tables after it and by what
it reports. -/
inductive Transition (sanitizer : Sanitizer) (now : Instant) (fresh : Nat → Uuid) (t : Tables) :
    Operation → Reply → Tables → List Event → Prop
  /-- The operation only looks. -/
  | look {op : Operation} {reply : Reply} (hlooks : op.isMutation = false) :
    Transition sanitizer now fresh t op reply t []
  /-- A post is made, with a draft. -/
  | start {r : CreatePost} {v : Version} {p : Post}
    (hv : v = .firstDraft (fresh 1) (fresh 0) (sanitizer r.title) (sanitizer r.content) now)
    (hp : p = (Post.new (fresh 0) now).pointTo v.id now)
    (hgiven : v.title ≠ "" ∧ v.content ≠ "")
    (hpost : t.posts.get? p.id = none) (hunused : t.versions.get? v.id = none) :
    Transition sanitizer now fresh t (.createPost r) (.post (.of v))
      ((t.withVersion v).withPost p) []
  /-- The draft of a post is changed in its place. -/
  | amend {id : Uuid} {r : UpdatePost} {latest v : Version}
    (hlatest : latestVersion? t.versions.rows id = some latest) (hdraft : latest.published = none)
    (hv : v = latest.edited sanitizer r) :
    Transition sanitizer now fresh t (.updatePost id r) (.post (.of v)) (t.withVersion v)
      [.draftAmended id v.id v.number]
  /-- A draft is stacked on the last publication of a post. -/
  | stack {id : Uuid} {r : UpdatePost} {post : Post} {latest v : Version}
    (hpost : t.posts.get? id = some post)
    (hlatest : latestVersion? t.versions.rows id = some latest)
    (hpublished : latest.published.isSome)
    (hv : v = { latest.edited sanitizer r with
      id := fresh 0, number := latest.number + 1, published := none, created := now })
    (hunused : t.versions.get? v.id = none) :
    Transition sanitizer now fresh t (.updatePost id r) (.post (.of v))
      ((t.withVersion v).withPost (post.pointTo v.id now)) [.draftStacked id v.id v.number]
  /-- The draft of a post is published. -/
  | publish {id : Uuid} {post : Post} {latest v : Version}
    (hpost : t.posts.get? id = some post)
    (hlatest : latestVersion? t.versions.rows id = some latest) (hdraft : latest.published = none)
    (hv : v = { latest with published := some now }) :
    Transition sanitizer now fresh t (.publishPost id) (.published (.of v now))
      ((t.withVersion v).withPost (post.pointTo v.id now)) [.versionPublished id v.id v.number]
  /-- The draft of a post is deleted. -/
  | drop {id : Uuid} {post : Post} {latest : Version} {current : Option Uuid}
    (hpost : t.posts.get? id = some post)
    (hlatest : latestVersion? t.versions.rows id = some latest) (hdraft : latest.published = none)
    (hcurrent : current =
      (latestVersion? (t.withoutVersion latest.id).versions.rows id).map (·.id)) :
    Transition sanitizer now fresh t (.deleteDraft id) .done
      ((t.withoutVersion latest.id).withPost (post.pointTo current now))
      [.draftDeleted id latest.id latest.number current]
  /-- A category is made. -/
  | createCategory {r : NameCategory} {c : Category}
    (hc : c = .new (fresh 0) (sanitizer r.name) now) (hgiven : c.name ≠ "")
    (hfree : categoryNamed? t.categories.rows c.name = none) :
    Transition sanitizer now fresh t (.createCategory r) (.category c) (t.withCategory c)
      [.categoryCreated c.id]
  /-- A category gets another name. -/
  | rename {id : Uuid} {r : NameCategory} {before c : Category}
    (hbefore : t.categories.get? id = some before) (hid : before.id = id)
    (hc : c = before.rename (sanitizer r.name) now)
    (hgiven : c.name ≠ "") (hother : before.name ≠ c.name)
    (hfree : isNameTaken t.categories.rows c.name id = false) :
    Transition sanitizer now fresh t (.updateCategory id r) (.category c) (t.withCategory c)
      [.categoryRenamed id c.name]
  /-- A version is put into categories. -/
  | attach {r : AttachCategories} {t' : Tables} {inserted : Nat} (hvalid : r.validate = .ok ())
    (hversion : t.versions.contains r.version = true)
    (hattach : t.attach (r.links now) = (.ok inserted, t')) :
    Transition sanitizer now fresh t (.attach r) .done t'
      [.categoriesAttached r.version r.categories.length inserted]

/-! ## Bodies of transactions -/

section

variable {sanitizer : Sanitizer} {now : Instant} {fresh : Nat → Uuid} {t : Tables} {ws : Workspace}
  {α : Type}

/-- What succeeds after it locked a post and its latest version has found both. -/
theorem of_locks {id : Uuid} {f : Post → Version → Task α} {a : α} {start : Workspace}
    (h : (do let post ← Posts.lockPost id
             let latest ← Posts.lockLatest id
             f post latest : Task α).eval now fresh start = (.ok a, ws)) :
    ∃ post latest, start.tables.posts.get? id = some post ∧
      latestVersion? start.tables.versions.rows id = some latest ∧
      (f post latest).eval now fresh start = (.ok a, ws) := by
  obtain ⟨post, ws₁, hpost, h⟩ := Task.eval_bind_eq_ok h
  obtain ⟨latest, ws₂, hlatest, h⟩ := Task.eval_bind_eq_ok h
  obtain ⟨found, _, hlocked, hpost⟩ := Task.eval_call_bind_eq_ok hpost
  cases hlocked
  obtain ⟨hfound, rfl⟩ := Task.eval_require_eq_ok hpost
  obtain ⟨newest, _, hlocked, hlatest⟩ := Task.eval_call_bind_eq_ok hlatest
  cases hlocked
  obtain ⟨hnewest, rfl⟩ := Task.eval_require_eq_ok hlatest
  exact ⟨post, latest, hfound, hnewest, h⟩

theorem transition_createIn {r : CreatePost} {v : Version}
    (hgiven : sanitizer r.title ≠ "" ∧ sanitizer r.content ≠ "")
    (h : (Posts.createIn (sanitizer r.title) (sanitizer r.content) now).eval now fresh ⟨t, 0, []⟩ =
      (.ok v, ws)) :
    Transition sanitizer now fresh t (.createPost r) (.post (.of v)) ws.tables ws.events := by
  obtain ⟨_, _, hid, h⟩ := Task.eval_bind_eq_ok h
  cases hid
  obtain ⟨_, t₁, hcreate, h⟩ := Task.eval_call_bind_eq_ok h
  obtain ⟨hpost, rfl⟩ := Tables.of_createPost hcreate
  obtain ⟨_, _, hid, h⟩ := Task.eval_bind_eq_ok h
  cases hid
  obtain ⟨_, t₂, hwrite, h⟩ := Task.eval_call_bind_eq_ok h
  obtain ⟨hunused, rfl⟩ := Tables.of_createVersion hwrite
  obtain ⟨_, t₃, hpoint, h⟩ := Task.eval_call_bind_eq_ok h
  cases h
  obtain rfl := Tables.of_updatePost hpoint (Table.get?_insert_self _ _ _) rfl
  let v := Version.firstDraft (fresh 1) (fresh 0) (sanitizer r.title) (sanitizer r.content) now
  let p := (Post.new (fresh 0) now).pointTo v.id now
  have hstart : Transition sanitizer now fresh t (.createPost r) (.post (.of v))
      ((t.withVersion v).withPost p) [] := .start rfl rfl hgiven hpost hunused
  -- the row of the post is written twice
  have htwice : ((t.withPost (Post.new (fresh 0) now)).withVersion v).withPost p =
      (t.withVersion v).withPost p := by
    simp only [Tables.withPost, Tables.withVersion, p, Post.pointTo, Table.insert_insert]
  rw [← htwice] at hstart
  exact hstart

theorem transition_updateIn (hwf : t.WellFormed) {id : Uuid} {r : UpdatePost} {v : Version}
    (h : (Posts.updateIn id (cleanOption sanitizer r.title) (cleanOption sanitizer r.content)
      now).eval now fresh ⟨t, 0, []⟩ = (.ok v, ws)) :
    Transition sanitizer now fresh t (.updatePost id r) (.post (.of v)) ws.tables ws.events := by
  obtain ⟨post, latest, hpost, hlatest, h⟩ := of_locks h
  have hstored := hwf.get?_latest hlatest
  have hid : post.id = id := hwf.posts id post hpost
  dsimp only at h
  cases hpublished : latest.published with
  | none =>
    simp only [Version.revise, Version.status, hpublished, Status.of] at h
    obtain ⟨_, t₁, hwrite, h⟩ := Task.eval_call_bind_eq_ok h
    cases h
    obtain rfl := Tables.of_updateVersion hwrite hstored rfl
    exact .amend hlatest hpublished (by simp only [Version.edited, hpublished])
  | some published =>
    simp only [Version.revise, Version.status, hpublished, Status.of] at h
    obtain ⟨_, _, hfresh, h⟩ := Task.eval_bind_eq_ok h
    cases hfresh
    obtain ⟨_, t₁, hwrite, h⟩ := Task.eval_call_bind_eq_ok h
    obtain ⟨hunused, rfl⟩ := Tables.of_createVersion hwrite
    obtain ⟨_, t₂, hpoint, h⟩ := Task.eval_call_bind_eq_ok h
    cases h
    obtain rfl := Tables.of_updatePost hpoint (hid.symm ▸ hpost) rfl
    exact .stack hpost hlatest (hpublished ▸ rfl) rfl hunused

theorem transition_publishIn (hwf : t.WellFormed) {id : Uuid} {v : Version}
    (h : (Posts.publishIn id now).eval now fresh ⟨t, 0, []⟩ = (.ok v, ws)) :
    Transition sanitizer now fresh t (.publishPost id) (.published (.of v now)) ws.tables
      ws.events := by
  obtain ⟨post, latest, hpost, hlatest, h⟩ := of_locks h
  have hstored := hwf.get?_latest hlatest
  have hid : post.id = id := hwf.posts id post hpost
  obtain ⟨published, _, hpublish, h⟩ := Task.eval_bind_eq_ok h
  cases hdraft : latest.published with
  | some published =>
    simp only [Version.publish, Version.isPublished, Version.status, hdraft, Status.of] at hpublish
    cases hpublish
  | none =>
    simp only [Version.publish, Version.isPublished, Version.status, hdraft, Status.of] at hpublish
    cases hpublish
    obtain ⟨_, t₁, hwrite, h⟩ := Task.eval_call_bind_eq_ok h
    obtain rfl := Tables.of_updateVersion hwrite hstored rfl
    obtain ⟨_, t₂, hpoint, h⟩ := Task.eval_call_bind_eq_ok h
    cases h
    obtain rfl := Tables.of_updatePost hpoint (hid.symm ▸ hpost) rfl
    exact .publish hpost hlatest hdraft rfl

theorem transition_deleteDraftIn (hwf : t.WellFormed) {id : Uuid} {u : Unit}
    (h : (Posts.deleteDraftIn id now).eval now fresh ⟨t, 0, []⟩ = (.ok u, ws)) :
    Transition sanitizer now fresh t (.deleteDraft id) .done ws.tables ws.events := by
  obtain ⟨post, latest, hpost, hlatest, h⟩ := of_locks h
  have hid : post.id = id := hwf.posts id post hpost
  obtain ⟨_, _, hdeletable, h⟩ := Task.eval_bind_eq_ok h
  cases hdraft : latest.published with
  | some published =>
    simp only [Version.ensureDeletable, Version.isPublished, Version.status, hdraft, Status.of]
      at hdeletable
    cases hdeletable
  | none =>
    simp only [Version.ensureDeletable, Version.isPublished, Version.status, hdraft, Status.of]
      at hdeletable
    cases hdeletable
    obtain ⟨_, t₁, hdelete, h⟩ := Task.eval_call_bind_eq_ok h
    obtain rfl := Tables.of_deleteVersion hdelete
    obtain ⟨previous, _, hprevious, h⟩ := Task.eval_call_bind_eq_ok h
    cases hprevious
    obtain ⟨_, t₂, hpoint, h⟩ := Task.eval_call_bind_eq_ok h
    cases h
    obtain rfl := Tables.of_updatePost hpoint (hid.symm ▸ hpost) rfl
    exact .drop hpost hlatest hdraft rfl

theorem transition_createIn_category {r : NameCategory} {c : Category}
    (hgiven : sanitizer r.name ≠ "")
    (h : (Categories.createIn (sanitizer r.name) now).eval now fresh ⟨t, 0, []⟩ = (.ok c, ws)) :
    Transition sanitizer now fresh t (.createCategory r) (.category c) ws.tables
      (.categoryCreated c.id :: ws.events) := by
  obtain ⟨other, _, hother, h⟩ := Task.eval_call_bind_eq_ok h
  cases hother
  cases hfree : categoryNamed? t.categories.rows (sanitizer r.name) with
  | some other =>
    rw [if_pos (hfree ▸ rfl)] at h
    cases h
  | none =>
    rw [if_neg (by simp [hfree])] at h
    obtain ⟨_, _, hfresh, h⟩ := Task.eval_bind_eq_ok h
    cases hfresh
    obtain ⟨_, t₁, hwrite, h⟩ := Task.eval_call_bind_eq_ok h
    cases h
    obtain rfl := Tables.of_createCategory hwrite
    exact .createCategory rfl hgiven hfree

theorem transition_renameIn (hwf : t.WellFormed) {id : Uuid} {r : NameCategory} {c : Category}
    (hgiven : sanitizer r.name ≠ "")
    (h : (Categories.renameIn id (sanitizer r.name) now).eval now fresh ⟨t, 0, []⟩ = (.ok c, ws)) :
    Transition sanitizer now fresh t (.updateCategory id r) (.category c) ws.tables ws.events := by
  obtain ⟨locked, _, hlocked, h⟩ := Task.eval_call_bind_eq_ok h
  cases hlocked
  obtain ⟨before, _, hrequired, h⟩ := Task.eval_bind_eq_ok h
  obtain ⟨hbefore, rfl⟩ := Task.eval_require_eq_ok hrequired
  have hid : before.id = id := hwf.categories id before hbefore
  split at h
  · cases h
  · rename_i hother
    obtain ⟨named, _, hnamed, h⟩ := Task.eval_call_bind_eq_ok h
    cases hnamed
    split at h
    · cases h
    · obtain ⟨_, t₁, hwrite, h⟩ := Task.eval_call_bind_eq_ok h
      cases h
      obtain ⟨hfree, rfl⟩ := Tables.of_updateCategory hwrite (hid.symm ▸ hbefore) rfl
      exact .rename hbefore hid rfl hgiven hother (hid ▸ hfree)

theorem transition_attachIn {r : AttachCategories} {inserted : Nat} (hvalid : r.validate = .ok ())
    (h : (Categories.attachIn r now).eval now fresh ⟨t, 0, []⟩ = (.ok inserted, ws)) :
    Transition sanitizer now fresh t (.attach r) .done ws.tables
      (.categoriesAttached r.version r.categories.length inserted :: ws.events) := by
  obtain ⟨locked, _, hlocked, h⟩ := Task.eval_call_bind_eq_ok h
  cases hlocked
  obtain ⟨version, _, hrequired, h⟩ := Task.eval_bind_eq_ok h
  obtain ⟨hversion, rfl⟩ := Task.eval_require_eq_ok hrequired
  obtain ⟨found, _, hfound, h⟩ := Task.eval_call_bind_eq_ok h
  cases hfound
  dsimp only at h
  split at h
  · cases h
  · obtain ⟨hanswer, rfl⟩ := Prod.mk.inj h
    have hattach : t.attach (r.links now) = (.ok inserted, (t.attach (r.links now)).2) :=
      Prod.ext hanswer rfl
    exact .attach hvalid (Table.contains_iff.mpr ⟨version, hversion⟩) hattach

/-! ## Effects -/

/-- A change that is answered with success has evaluated its body, and says of the result what is to
be said. -/
theorem Effect.of_settled {x : Task α} {f : α → Settled} {reply : Reply}
    (h : (Effect.settled t ((f <$> x).eval now fresh ⟨t, 0, []⟩)).answer = .ok reply) :
    ∃ a ws, x.eval now fresh ⟨t, 0, []⟩ = (.ok a, ws) ∧ (f a).reply = reply ∧
      Effect.settled t ((f <$> x).eval now fresh ⟨t, 0, []⟩) =
        ⟨.ok reply, ws.tables, 1, ws.taken, (f a).event?.toList ++ ws.events⟩ := by
  rw [Task.eval_map] at h ⊢
  generalize x.eval now fresh ⟨t, 0, []⟩ = meant at h ⊢
  obtain ⟨e | a, ws⟩ := meant
  · cases h
  · cases h
    exact ⟨a, ws, rfl, rfl, rfl⟩

theorem of_refuseBlank {title content : String}
    (h : refuseBlank (blankFields [("title", title), ("content", content)]) = .ok ()) :
    title ≠ "" ∧ content ≠ "" := by
  constructor <;> rintro rfl
  · cases h
  · by_cases htitle : title = ""
    · rw [htitle] at h
      cases h
    · simp [blankFields, refuseBlank, htitle] at h

theorem of_cleanName {r : NameCategory} {name : String}
    (h : Categories.cleanName sanitizer r = .ok name) : name = sanitizer r.name ∧ name ≠ "" := by
  unfold Categories.cleanName at h
  by_cases hname : sanitizer r.name = ""
  · simp [hname, blankFields, refuseBlank, Except.map] at h
  · simp [hname, blankFields, refuseBlank, Except.map] at h
    exact ⟨h.symm, h ▸ hname⟩

/-- A new post is a transition, even where the tables are not well-formed. -/
theorem transition_of_createPost {r : CreatePost} {reply : Reply}
    (hok : ((Operation.createPost r).effect sanitizer now fresh t).answer = .ok reply) :
    Transition sanitizer now fresh t (.createPost r) reply
      ((Operation.createPost r).effect sanitizer now fresh t).tables
      ((Operation.createPost r).effect sanitizer now fresh t).events := by
  unfold Operation.effect at hok ⊢
  simp only [Operation.plan] at hok ⊢
  split at hok
  · cases hok
  · rename_i hgiven
    obtain ⟨v, ws, heval, rfl, heffect⟩ := Effect.of_settled hok
    simp only [Plan.effect, heffect]
    exact transition_createIn (of_refuseBlank hgiven) heval

/-- A new category is a transition, even where the tables are not well-formed. -/
theorem transition_of_createCategory {r : NameCategory} {reply : Reply}
    (hok : ((Operation.createCategory r).effect sanitizer now fresh t).answer = .ok reply) :
    Transition sanitizer now fresh t (.createCategory r) reply
      ((Operation.createCategory r).effect sanitizer now fresh t).tables
      ((Operation.createCategory r).effect sanitizer now fresh t).events := by
  unfold Operation.effect at hok ⊢
  simp only [Operation.plan] at hok ⊢
  split at hok
  · cases hok
  · rename_i name hname
    obtain ⟨rfl, hgiven⟩ := of_cleanName hname
    obtain ⟨c, ws, heval, rfl, heffect⟩ := Effect.of_settled hok
    simp only [Plan.effect, heffect]
    exact transition_createIn_category hgiven heval

/-- An effect without an error is one of the transitions. -/
theorem effect_transition (hwf : t.WellFormed) {op : Operation} {reply : Reply}
    (hok : (op.effect sanitizer now fresh t).answer = .ok reply) :
    Transition sanitizer now fresh t op reply (op.effect sanitizer now fresh t).tables
      (op.effect sanitizer now fresh t).events := by
  have hlook (h : op.isMutation = false) : Transition sanitizer now fresh t op reply
      (op.effect sanitizer now fresh t).tables (op.effect sanitizer now fresh t).events := by
    have hlooked : (op.effect sanitizer now fresh t).tables = t ∧
        (op.effect sanitizer now fresh t).events = [] := Operation.effect_of_look h
    rw [hlooked.1, hlooked.2]
    exact .look h
  unfold Operation.effect at hok ⊢
  cases op with
  | getPost id | getVersion id | getCategory id => exact hlook rfl
  | createPost r => exact transition_of_createPost hok
  | updatePost id r =>
    simp only [Operation.plan] at hok ⊢
    split at hok
    · cases hok
    · rename_i hgiven
      rw [if_neg hgiven]
      obtain ⟨v, ws, heval, rfl, heffect⟩ := Effect.of_settled hok
      simp only [Plan.effect, heffect]
      exact transition_updateIn hwf heval
  | publishPost id =>
    obtain ⟨v, ws, heval, rfl, heffect⟩ := Effect.of_settled hok
    simp only [Operation.plan, Plan.effect, heffect]
    exact transition_publishIn hwf heval
  | deleteDraft id =>
    obtain ⟨u, ws, heval, rfl, heffect⟩ := Effect.of_settled hok
    simp only [Operation.plan, Plan.effect, heffect]
    exact transition_deleteDraftIn hwf heval
  | createCategory r => exact transition_of_createCategory hok
  | updateCategory id r =>
    simp only [Operation.plan] at hok ⊢
    split at hok
    · cases hok
    · rename_i name hname
      obtain ⟨rfl, hgiven⟩ := of_cleanName hname
      obtain ⟨c, ws, heval, rfl, heffect⟩ := Effect.of_settled hok
      simp only [Plan.effect, heffect]
      exact transition_renameIn hwf hgiven heval
  | attach r =>
    simp only [Operation.plan] at hok ⊢
    split at hok
    · cases hok
    · rename_i hvalid
      obtain ⟨inserted, ws, heval, rfl, heffect⟩ := Effect.of_settled hok
      simp only [Plan.effect, heffect]
      exact transition_attachIn hvalid heval

end

/-- What every call keeps is kept by every effect. -/
theorem effect_stays {P : Tables → Prop} (hcall : ∀ (c : Call) t, P t → P (t.call c).2)
    (sanitizer : Sanitizer) (now : Instant) (fresh : Nat → Uuid) (op : Operation) {t : Tables}
    (h : P t) : P (op.effect sanitizer now fresh t).tables := by
  have hsound := op.plan_sound sanitizer
  unfold Operation.effect
  generalize op.plan sanitizer = plan at hsound ⊢
  cases plan with
  | refuse e => exact h
  | look task => exact Script.eval_stays (fun a t ha h => (ha.keeps t).symm ▸ h) hsound _ h
  | change body =>
    have hbody : P ((body now).eval now fresh ⟨t, 0, []⟩).2.tables := by
      refine Script.eval_stays (fun a t ha h => ?_) (hsound now) _ h
      obtain ⟨c, rfl⟩ := ha
      exact hcall c t h
    simp only [Plan.effect]
    generalize (body now).eval now fresh ⟨t, 0, []⟩ = meant at hbody ⊢
    obtain ⟨e | settled, ws⟩ := meant
    · exact h
    · exact hbody

theorem effect_wellFormed (sanitizer : Sanitizer) (now : Instant) (fresh : Nat → Uuid)
    (op : Operation) {t : Tables} (hwf : t.WellFormed) :
    (op.effect sanitizer now fresh t).tables.WellFormed :=
  effect_stays (fun c _ hwf => hwf.call c) sanitizer now fresh op hwf

/-! ## Runs -/

section

variable {sanitizer : Sanitizer} {P : Tables → Prop} {w : World} {t : Tables}

/-- What the effects of some operations keep holds after every run of them, whatever faults strike
it. -/
theorem performAll_stays (s : Surroundings) {ops : List Operation}
    (hP : ∀ op ∈ ops, ∀ now fresh t, P t → P (op.effect sanitizer now fresh t).tables)
    (hfree : w.store.Free t) (h : P t) :
    ∃ t', (performAll s sanitizer ops w).2.store.Free t' ∧ P t' := by
  induction ops generalizing w t with
  | nil => exact ⟨t, hfree, h⟩
  | cons op rest ih =>
    have hrest := fun op' hop' => hP op' (List.mem_cons_of_mem _ hop')
    cases perform_cases s sanitizer op hfree with
    | done _ _ hstore => exact ih hrest hstore (hP op List.mem_cons_self _ _ t h)
    | struck _ _ hstore => exact ih hrest hstore h

theorem performAll_wellFormed (s : Surroundings) (sanitizer : Sanitizer) (ops : List Operation)
    (hfree : w.store.Free t) (hwf : t.WellFormed) :
    ∃ t', (performAll s sanitizer ops w).2.store.Free t' ∧ t'.WellFormed :=
  performAll_stays s (fun op _ now fresh _ => effect_wellFormed sanitizer now fresh op) hfree hwf

theorem perform_wellFormed (s : Surroundings) (sanitizer : Sanitizer) (op : Operation)
    (hfree : w.store.Free t) (hwf : t.WellFormed) :
    (op.perform s sanitizer w).2.store.tables.WellFormed := by
  cases perform_cases s sanitizer op hfree with
  | done _ _ hstore =>
    rw [hstore]
    exact effect_wellFormed sanitizer _ _ op hwf
  | struck _ _ hstore =>
    rw [hstore]
    exact hwf

end

end Weblog
