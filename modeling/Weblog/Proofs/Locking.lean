import Weblog.Proofs.Creation
import Weblog.Proofs.Visits
import Weblog.Proofs.Blog.Independence

/-!
# Rows are locked before they are used

A transaction holds the rows that it has locked so far (`Held`), and what it may do depends on what
it holds (`Access.Allowed`): an operation on a post reads and writes versions only while it holds
the post, and no operation writes a version anew that it does not hold.

* `Script.Locks`: a script keeps to this whatever the store answers.
* `Operation.task_locks`: every operation does.
* `Script.visits_locks`: in a run of such a script, wherever faults strike and in whatever store,
  what an access needs was locked by an access before it.
* `Script.visits_done`: what an access did, it did to the store that the accesses before it left.
-/

namespace Weblog

variable {α β : Type}

/-! ## What is held -/

/-- Reads or writes of versions. -/
def Access.onVersions : Access → Bool
  | call (.createVersion _) | call (.updateVersion _) | call (.lockLatestVersion _)
  | call (.lockVersion _) | call (.deleteVersion _) | call (.attach _) => true
  | query (.currentPost _) | query (.version _) | query (.categoriesOf _) => true
  | _ => false

/-- The posts and the versions that a transaction has locked. -/
structure Held where
  posts : List Uuid
  versions : List Uuid

namespace Held

def nothing : Held :=
  ⟨[], []⟩

/-- What is held when an access has been answered. Only a row that is there is locked. -/
def after (held : Held) : (a : Access) → Except Error a.Answer → Held
  | .call (.lockPost id), .ok (some _) => { held with posts := id :: held.posts }
  | .call (.lockLatestVersion _), .ok (some v) | .call (.lockVersion _), .ok (some v) =>
    { held with versions := v.id :: held.versions }
  | _, _ => held

/-- An access that fails locks nothing. -/
theorem after_error (held : Held) (a : Access) (e : Error) : held.after a (.error e) = held := by
  cases a with
  | begin | commit | rollback | query q => rfl
  | call c => cases c <;> rfl

end Held

/-- What an access needs is held: the post that the operation is on if versions are read or written,
and the version that is written anew or deleted. -/
structure Access.Allowed (target : Option Uuid) (held : Held) (a : Access) : Prop where
  posts : ∀ id, target = some id → a.onVersions = true → id ∈ held.posts
  versions : ∀ key, a.rewrites? = some key → key ∈ held.versions

/-- An access that needs nothing. -/
def Access.Unguarded (target : Option Uuid) (a : Access) : Prop :=
  (target = none ∨ a.onVersions = false) ∧ a.rewrites? = none

theorem Access.Unguarded.allowed {target : Option Uuid} {a : Access} (h : a.Unguarded target)
    (held : Held) : a.Allowed target held where
  posts := by
    rintro id htarget hversions
    rcases h.1 with hnone | hfalse
    · rw [hnone] at htarget
      cases htarget
    · rw [hfalse] at hversions
      cases hversions
  versions := by
    intro key hkey
    rw [h.2] at hkey
    cases hkey

/-- Whoever holds a post may do with it whatever writes no version anew. -/
theorem Access.allowed_of_read {id : Uuid} {versions : List Uuid} {a : Access}
    (hread : a.rewrites? = none) : a.Allowed (some id) ⟨[id], versions⟩ where
  posts _ hid _ := List.mem_singleton.mpr (Option.some.inj hid).symm
  versions key hkey := by
    rw [hread] at hkey
    cases hkey

/-- Whoever holds a post and a version may write the version anew. -/
theorem Access.allowed_of_rewrite {id key : Uuid} {versions : List Uuid} {a : Access}
    (hwrite : a.rewrites? = some key) (hheld : key ∈ versions) :
    a.Allowed (some id) ⟨[id], versions⟩ where
  posts _ hid _ := List.mem_singleton.mpr (Option.some.inj hid).symm
  versions _ hkey := Option.some.inj (hwrite.symm.trans hkey) ▸ hheld

/-! ## Scripts that lock what they use -/

/-- Whatever is answered to it, the script makes no access before it holds what the access needs,
and a result of the script comes with what is held then. -/
def Script.Locks (target : Option Uuid) (Q : α → Held → Prop) :
    Script (Except Error α) → Held → Prop
  | .done (.ok a), held => Q a held
  | .done (.error _), _ => True
  | .readClock next, held => ∀ now, (next now).Locks target Q held
  | .takeId next, held => ∀ id, (next id).Locks target Q held
  | .report _ rest, held => rest.Locks target Q held
  | .ask a next, held =>
    a.Allowed target held ∧ ∀ answer, (next answer).Locks target Q (held.after a answer)

def Task.Locks (target : Option Uuid) (Q : α → Held → Prop) (x : Task α) (held : Held) : Prop :=
  Script.Locks target Q x.run held

namespace Task.Locks

variable {target : Option Uuid} {Q : α → Held → Prop} {held : Held}

theorem pure {a : α} (h : Q a held) : Task.Locks target Q (pure a : Task α) held :=
  h

theorem throw (e : Error) : Task.Locks target Q (throw e : Task α) held :=
  trivial

theorem ofExcept {result : Except Error α} (h : ∀ a, result = .ok a → Q a held) :
    Task.Locks target Q (Task.ofExcept result) held := by
  cases result with
  | ok a => exact h a rfl
  | error e => exact trivial

theorem takeId {Q : Uuid → Held → Prop} (h : ∀ id, Q id held) :
    Task.Locks target Q Task.takeId held :=
  h

theorem readClock {Q : Instant → Held → Prop} (h : ∀ now, Q now held) :
    Task.Locks target Q Task.readClock held :=
  h

theorem report {Q : Unit → Held → Prop} (e : Event) (h : Q () held) :
    Task.Locks target Q (Task.report e) held :=
  h

theorem ask {a : Access} {Q : a.Answer → Held → Prop} (ha : a.Allowed target held)
    (h : ∀ answer, Q answer (held.after a (.ok answer))) :
    Task.Locks target Q (Task.ask a) held := by
  refine ⟨ha, fun answer => ?_⟩
  cases answer with
  | ok answer => exact h answer
  | error e => exact trivial

theorem bind {x : Task α} {f : α → Task β} {Q : β → Held → Prop}
    (h : x.Locks target (fun a held => (f a).Locks target Q held) held) :
    (x >>= f).Locks target Q held := by
  unfold Task.Locks at h ⊢
  rw [Task.run_bind]
  generalize x.run = script at h
  induction script generalizing held with
  | done result =>
    cases result with
    | ok a => exact h
    | error e => exact trivial
  | readClock next ih => exact fun now => ih now (h now)
  | takeId next ih => exact fun id => ih id (h id)
  | report e rest ih => exact ih h
  | ask a next ih => exact ⟨h.1, fun answer => ih answer (h.2 answer)⟩

theorem map {x : Task α} (f : α → β) {Q : β → Held → Prop}
    (h : x.Locks target (fun a held => Q (f a) held) held) : (f <$> x).Locks target Q held := by
  rw [map_eq_pure_bind]
  exact bind h

theorem mono {Q' : α → Held → Prop} {x : Task α} (h : x.Locks target Q held)
    (hQ : ∀ a held, Q a held → Q' a held) : x.Locks target Q' held := by
  unfold Task.Locks at h ⊢
  generalize x.run = script at h
  induction script generalizing held with
  | done result =>
    cases result with
    | ok a => exact hQ a held h
    | error e => exact trivial
  | readClock next ih => exact fun now => ih now (h now)
  | takeId next ih => exact fun id => ih id (h id)
  | report e rest ih => exact ih h
  | ask a next ih => exact ⟨h.1, fun answer => ih answer (h.2 answer)⟩

/-- What needs nothing may be done at any time. -/
theorem of_only {ok : Access → Prop} {x : Task α} (hx : x.Only ok)
    (hok : ∀ a, ok a → a.Unguarded target) : x.Locks target (fun _ _ => True) held := by
  unfold Task.Only at hx
  unfold Task.Locks
  generalize x.run = script at hx
  induction script generalizing held with
  | done result => cases result <;> exact trivial
  | readClock next ih => exact absurd hx id
  | takeId next ih => exact fun id => ih id (hx id)
  | report e rest ih => exact ih hx
  | ask a next ih => exact ⟨(hok a hx.1).allowed held, fun answer => ih answer (hx.next answer)⟩

/-- The end of a transaction needs nothing. -/
theorem finish (result : Except Error α) :
    (Task.finish result).Locks target (fun _ _ => True) held := by
  have hend : ∀ a : Access, a = .commit ∨ a = .rollback → a.Allowed target held := by
    rintro a (rfl | rfl) <;> exact Access.Unguarded.allowed ⟨.inr rfl, rfl⟩ held
  cases result with
  | ok a => exact bind (ask (hend _ (.inl rfl)) fun _ => pure trivial)
  | error e =>
    refine ⟨hend _ (.inr rfl), fun answer => ?_⟩
    cases answer <;> exact trivial

/-- Whatever comes of a script, it may be followed by what may be done at any time. -/
theorem lift {x : Task α} (h : x.Locks target Q held) {Q' : Except Error α → Held → Prop}
    (hQ : ∀ result held, Q' result held) : (ExceptT.lift x.run : Task _).Locks target Q' held := by
  unfold Task.Locks at h
  change Script.Locks target Q' (x.run.bind fun result => .done (.ok result)) held
  generalize x.run = script at h
  induction script generalizing held with
  | done result => exact hQ result held
  | readClock next ih => exact fun now => ih now (h now)
  | takeId next ih => exact fun id => ih id (h id)
  | report e rest ih => exact ih h
  | ask a next ih => exact ⟨h.1, fun answer => ih answer (h.2 answer)⟩

/-- A transaction locks what it uses if its body does, which starts with nothing held. -/
theorem transact {body : Task α} (h : body.Locks target Q .nothing) :
    (Task.transact body).Locks target (fun _ _ => True) .nothing :=
  bind (ask (Access.Unguarded.allowed ⟨.inr rfl, rfl⟩ _) fun _ =>
    bind (lift h fun result _ => finish result))

end Task.Locks

/-! ## Operations -/

theorem Version.id_of_amended {v draft : Version} {title content : String} {now : Instant}
    (h : v.revise title content now = .amended draft) : draft.id = v.id := by
  unfold revise at h
  split at h <;> cases h
  rfl

theorem Version.id_of_publish {v published : Version} {now : Instant}
    (h : v.publish now = .ok published) : published.id = v.id := by
  unfold publish at h
  split at h <;> cases h
  rfl

namespace Posts

/-- The operations on a post begin with locking the post and its latest version. -/
theorem locks_latest {id : Uuid} {f : Post → Version → Task α} {Q : α → Held → Prop}
    (h : ∀ post latest, (f post latest).Locks (some id) Q ⟨[id], [latest.id]⟩) :
    (do
      let post ← lockPost id
      let latest ← lockLatest id
      f post latest).Locks (some id) Q .nothing := by
  refine .bind (.bind (.ask (Access.Unguarded.allowed ⟨.inr rfl, rfl⟩ _) fun found => ?_))
  cases found with
  | none => exact .throw _
  | some post =>
    refine .pure (.bind (.bind (.ask (Access.allowed_of_read rfl) fun found => ?_)))
    cases found with
    | none => exact .throw _
    | some latest => exact .pure (h post latest)

theorem locks_updateIn (id : Uuid) (title content : Option String) (now : Instant) :
    (updateIn id title content now).Locks (some id) (fun _ _ => True) .nothing := by
  refine locks_latest fun post latest => ?_
  cases hrevise : latest.revise (title.getD latest.title) (content.getD latest.content) now with
  | amended draft =>
    have hheld : draft.id ∈ [latest.id] := List.mem_singleton.mpr (Version.id_of_amended hrevise)
    exact .bind (.ask (Access.allowed_of_rewrite rfl hheld) fun _ =>
      .bind (.report _ (.pure trivial)))
  | superseded next =>
    exact .bind (.takeId fun _ => .bind (.ask (Access.allowed_of_read rfl) fun _ =>
      .bind (.ask (Access.allowed_of_read rfl) fun _ => .bind (.report _ (.pure trivial)))))

theorem locks_publishIn (id : Uuid) (now : Instant) :
    (publishIn id now).Locks (some id) (fun _ _ => True) .nothing := by
  refine locks_latest fun post latest => .bind (.ofExcept fun published hpublish => ?_)
  have hheld : published.id ∈ [latest.id] := List.mem_singleton.mpr (Version.id_of_publish hpublish)
  exact .bind (.ask (Access.allowed_of_rewrite rfl hheld) fun _ =>
    .bind (.ask (Access.allowed_of_read rfl) fun _ => .bind (.report _ (.pure trivial))))

theorem locks_deleteDraftIn (id : Uuid) (now : Instant) :
    (deleteDraftIn id now).Locks (some id) (fun _ _ => True) .nothing := by
  refine locks_latest fun post latest => .bind (.ofExcept fun _ _ => ?_)
  refine .bind (.ask (Access.allowed_of_rewrite rfl List.mem_cons_self) fun _ => ?_)
  refine .bind (.ask (Access.allowed_of_read rfl) fun previous => ?_)
  -- the version before is locked as well, if there is one
  cases previous <;> exact .bind (.ask (Access.allowed_of_read rfl) fun _ => .report _ trivial)

/-- The first draft of a post is new, and nothing has to be held. -/
theorem unguarded_createIn (title content : String) (now : Instant) :
    (createIn title content now).Only (Access.Unguarded none) :=
  .bind .takeId fun _ => .bind (.ask ⟨.inl rfl, rfl⟩) fun _ => .bind .takeId fun _ =>
    .bind (.ask ⟨.inl rfl, rfl⟩) fun _ => .bind (.ask ⟨.inl rfl, rfl⟩) fun _ => .pure _

end Posts

theorem Access.IsQuery.unguarded {a : Access} (h : a.IsQuery) : a.Unguarded none := by
  obtain ⟨q, rfl⟩ := h
  exact ⟨.inl rfl, rfl⟩

theorem Access.SparesPosts.unguarded {a : Access} (h : a.SparesPosts) : a.Unguarded none :=
  ⟨.inl rfl, h.rewrites_none⟩

/-- A change locks what it uses if its body does, whatever is said of the change afterwards. -/
theorem Plan.locks_change {target : Option Uuid} {f : Instant → α → Settled}
    {body : Instant → Task α} (h : ∀ now, (body now).Locks target (fun _ _ => True) .nothing) :
    (Plan.change fun now => f now <$> body now).task.Locks target (fun _ _ => True) .nothing := by
  refine .bind (.readClock fun now => .bind ?_)
  refine .mono (.transact (.map (Q := fun _ _ => True) (f now) (h now))) ?_
  rintro ⟨reply, _ | e⟩ held -
  · exact .pure trivial
  · exact .bind (.report _ (.pure trivial))

/-- Every operation locks what it uses. -/
theorem Operation.task_locks (sanitizer : Sanitizer) (op : Operation) :
    (op.task sanitizer).Locks op.target? (fun _ _ => True) .nothing := by
  rw [op.task_eq_plan]
  cases op with
  | createPost r =>
    simp only [plan]
    split
    · exact .throw _
    · exact Plan.locks_change fun now => .of_only (Posts.unguarded_createIn _ _ now) fun _ h => h
  | updatePost id r =>
    simp only [plan]
    split
    · exact .throw _
    · exact Plan.locks_change fun now => Posts.locks_updateIn id _ _ now
  | publishPost id => exact Plan.locks_change fun now => Posts.locks_publishIn id now
  | deleteDraft id => exact Plan.locks_change fun now => Posts.locks_deleteDraftIn id now
  | createCategory r =>
    simp only [plan]
    split
    · exact .throw _
    · exact Plan.locks_change fun now =>
        .of_only (Categories.only_createIn _ now) fun _ h => h.unguarded
  | updateCategory id r =>
    simp only [plan]
    split
    · exact .throw _
    · exact Plan.locks_change fun now =>
        .of_only (Categories.only_renameIn id _ now) fun _ h => h.unguarded
  | attach r =>
    simp only [plan]
    split
    · exact .throw _
    · exact Plan.locks_change fun now =>
        .of_only (Categories.only_attachIn r now) fun _ h => h.unguarded
  | getPost id => exact .of_only (.map _ (Posts.only_get id)) fun _ h => h.unguarded
  | getVersion id => exact .of_only (.map _ (Posts.only_getVersion id)) fun _ h => h.unguarded
  | getCategory id => exact .of_only (.map _ (Categories.only_get id)) fun _ h => h.unguarded

/-! ## Runs -/

/-- The post was there and was locked. -/
def Visit.LocksPost (v : Visit) (id : Uuid) : Prop :=
  v.access = .call (.lockPost id) ∧ v.done = true ∧ v.store.tables.posts.contains id = true

/-- A version was there, alone or as the latest of its post, and was locked. -/
def Visit.LocksVersion (v : Visit) (key : Uuid) : Prop :=
  v.done = true ∧ ∃ row : Version, row.id = key ∧
    ((∃ post, v.access = .call (.lockLatestVersion post) ∧
        latestVersion? v.store.tables.versions.rows post = some row) ∨
      (∃ id, v.access = .call (.lockVersion id) ∧ v.store.tables.versions.get? id = some row))

/-- Some accesses locked all that is held. -/
structure Held.By (held : Held) (visits : List Visit) : Prop where
  posts : ∀ id ∈ held.posts, ∃ u ∈ visits, u.LocksPost id
  versions : ∀ key ∈ held.versions, ∃ u ∈ visits, u.LocksVersion key

namespace Held.By

variable {held : Held} {visits : List Visit}

theorem nothing : Held.nothing.By visits :=
  ⟨by simp [Held.nothing], by simp [Held.nothing]⟩

theorem concat (h : held.By visits) (v : Visit) : held.By (visits ++ [v]) where
  posts id hid := by
    obtain ⟨u, hu, hlocks⟩ := h.posts id hid
    exact ⟨u, List.mem_append_left _ hu, hlocks⟩
  versions key hkey := by
    obtain ⟨u, hu, hlocks⟩ := h.versions key hkey
    exact ⟨u, List.mem_append_left _ hu, hlocks⟩

/-- The post that the last access locked is held as well. -/
theorem withPost {id : Uuid} (h : held.By visits) {v : Visit} (hv : v.LocksPost id) :
    Held.By { held with posts := id :: held.posts } (visits ++ [v]) where
  posts := List.forall_mem_cons.mpr ⟨⟨v, by simp, hv⟩, (h.concat v).posts⟩
  versions := (h.concat v).versions

theorem withVersion {key : Uuid} (h : held.By visits) {v : Visit} (hv : v.LocksVersion key) :
    Held.By { held with versions := key :: held.versions } (visits ++ [v]) where
  posts := (h.concat v).posts
  versions := List.forall_mem_cons.mpr ⟨⟨v, by simp, hv⟩, (h.concat v).versions⟩

/-- What is held after an answer of the store was locked by the access or by those before it. -/
theorem after (h : held.By visits) {a : Access} {answer : Except Error a.Answer}
    {store store' : Store} (hperform : store.perform a = .ok (answer, store')) :
    (held.after a answer).By (visits ++ [⟨a, answer.isOk, store'⟩]) := by
  obtain ⟨t, record⟩ := store
  cases a with
  | begin | commit | rollback | query q => exact h.concat _
  | call c =>
    cases record with
    | none => cases hperform
    | some record =>
      cases c with
      | lockPost id =>
        cases hperform
        cases hget : t.posts.get? id with
        | none => exact h.concat _
        | some post => exact h.withPost ⟨rfl, rfl, Table.contains_iff.mpr ⟨post, hget⟩⟩
      | lockLatestVersion post =>
        cases hperform
        cases hlatest : latestVersion? t.versions.rows post with
        | none => exact h.concat _
        | some v => exact h.withVersion ⟨rfl, v, rfl, .inl ⟨post, rfl, hlatest⟩⟩
      | lockVersion id =>
        cases hperform
        cases hget : t.versions.get? id with
        | none => exact h.concat _
        | some v => exact h.withVersion ⟨rfl, v, rfl, .inr ⟨id, rfl, hget⟩⟩
      | createPost _ | updatePost _ | createVersion _ | updateVersion _ | deleteVersion _
      | createCategory _ | updateCategory _ | lockCategory _ | findCategoryByName _
      | findCategories _ | attach _ => exact h.concat _

end Held.By

section

variable {s : Surroundings} {w : World} {before after : List Visit} {v : Visit}

/-- Of the accesses of a run each is the first one, or it comes later, and then the first one was
answered or failed. -/
theorem Script.visits_ask_split {a : Access} {next : Except Error a.Answer → Script α}
    (hsplit : (Script.ask a next).visits s w = before ++ v :: after) :
    (before = [] ∧ v.access = a ∧
        (v.done = true → ∃ answer, w.store.perform a = .ok (.ok answer, v.store))) ∨
      ∃ done answer w' before', before = ⟨a, done, w'.store⟩ :: before' ∧
        (next answer).visits s w' = before' ++ v :: after ∧
        (done = answer.isOk ∧ w.store.perform a = .ok (answer, w'.store) ∨
          ∃ e, answer = .error e) := by
  cases asked s a next w with
  | answered answer store hfault hperform hvisits hrun =>
    rcases List.cons_eq_append_iff.mp (hvisits.symm.trans hsplit) with
      ⟨rfl, hv⟩ | ⟨before', rfl, hrest⟩
    · obtain ⟨rfl, -⟩ := List.cons.inj hv
      refine .inl ⟨rfl, rfl, fun hdone => ?_⟩
      cases answer with
      | ok answer => exact ⟨answer, hperform⟩
      | error e => cases hdone
    · exact .inr ⟨_, answer, _, before', rfl, hrest, .inl ⟨rfl, hperform⟩⟩
  | failed e w' hvisits hrun =>
    rcases List.cons_eq_append_iff.mp (hvisits.symm.trans hsplit) with
      ⟨rfl, hv⟩ | ⟨before', rfl, hrest⟩
    · obtain ⟨rfl, -⟩ := List.cons.inj hv
      exact .inl ⟨rfl, rfl, nofun⟩
    · exact .inr ⟨_, .error e, w', before', rfl, hrest, .inr ⟨e, rfl⟩⟩
  | stopped o hstops hwhy hvisits hrun =>
    rcases List.cons_eq_append_iff.mp (hvisits.symm.trans hsplit) with
      ⟨rfl, hv⟩ | ⟨before', rfl, hrest⟩
    · obtain ⟨rfl, -⟩ := List.cons.inj hv
      exact .inl ⟨rfl, rfl, nofun⟩
    · simp at hrest

/-- **Locks.** In a run of a script that locks what it uses, whatever an access needs was locked by
an access before it. -/
theorem Script.visits_locks {target : Option Uuid} {Q : α → Held → Prop} {held : Held}
    {earlier : List Visit} {x : Script (Except Error α)} (hx : x.Locks target Q held)
    (hheld : held.By earlier) (hsplit : x.visits s w = before ++ v :: after) :
    ∃ held' : Held, held'.By (earlier ++ before) ∧ v.access.Allowed target held' := by
  induction x generalizing w held earlier before with
  | done result => simp [visits] at hsplit
  | readClock next ih => exact ih _ (hx _) hheld hsplit
  | takeId next ih => exact ih _ (hx _) hheld hsplit
  | report e rest ih => exact ih hx hheld hsplit
  | ask a next ih =>
    obtain ⟨hallowed, hnext⟩ := hx
    rcases visits_ask_split hsplit with
      ⟨rfl, rfl, -⟩ | ⟨done, answer, w', before', rfl, hrest, hanswer⟩
    · exact ⟨held, by simpa using hheld, hallowed⟩
    · -- what is needed later is held after the answer
      have hheld' : (held.after a answer).By (earlier ++ [⟨a, done, w'.store⟩]) := by
        rcases hanswer with ⟨rfl, hperform⟩ | ⟨e, rfl⟩
        · exact hheld.after hperform
        · exact (held.after_error a e).symm ▸ hheld.concat _
      simpa using ih answer (hnext answer) hheld' hrest

/-- What was carried out was granted by the store that the accesses before it left. -/
theorem Script.visits_done {x : Script α} (hsplit : x.visits s w = before ++ v :: after)
    (hdone : v.done = true) :
    ∃ answer, (storeAfter w.store before).perform v.access = .ok (.ok answer, v.store) := by
  induction x generalizing w before with
  | done result => simp [visits] at hsplit
  | readClock next ih => exact (ih _ hsplit :)
  | takeId next ih => exact (ih _ hsplit :)
  | report e rest ih => exact (ih hsplit :)
  | ask a next ih =>
    rcases visits_ask_split hsplit with
      ⟨rfl, rfl, hfirst⟩ | ⟨done, answer, w', before', rfl, hrest, -⟩
    · exact hfirst hdone
    · exact (ih answer hrest :)

end

/-- A version that a store has made was not there. -/
theorem Store.new_of_createVersion {store store' : Store} {v : Version} {answer : Unit}
    (h : store.perform (.call (.createVersion v)) = .ok (.ok answer, store')) :
    store.tables.versions.get? v.id = none := by
  obtain ⟨t, _ | record⟩ := store
  · cases h
  · have hcreated : (Transaction.createVersion ⟨t, record⟩ v).1 = .ok answer :=
      congrArg Prod.fst (Except.ok.inj h)
    rcases Transaction.createVersion_cases ⟨t, record⟩ v with ⟨hnew, -⟩ | ⟨-, e, hrefused⟩
    · exact hnew
    · rw [hrefused] at hcreated
      cases hcreated

end Weblog
