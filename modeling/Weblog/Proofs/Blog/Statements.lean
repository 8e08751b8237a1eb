import Weblog.Proofs.Blog.Numbering
import Weblog.Proofs.Transition
import Weblog.Proofs.Visits

/-!
# What the schema checks

The schema of a database for the blog checks some constraints after every statement and one when a
transaction is committed. The store checks neither that a post has at most one draft nor that it
points to a version of its own. They hold all the same whenever they would be checked, because of
what the operations do: a version is written only where it may be (`Call.Guarded`), and what is
committed stands for a blog.

* `Tables.Checked`: what is checked after every statement. A call that is guarded keeps it.
* `plan_through`: the calls of every operation are guarded, all through its transaction.
* `constraints_hold`: so the constraints hold after every access of every run, and the deferred one
  at every commit.
-/

namespace Weblog

/-! ## The constraints -/

/-- What the schema checks after every statement. -/
structure Tables.Checked (t : Tables) : Prop where
  /-- The numbers of versions are positive. -/
  numbers : ∀ key v, t.versions.get? key = some v → 1 ≤ v.number
  /-- No two versions of a post have the same number. -/
  places : t.versions.Distinct Version.place
  /-- A post has at most one draft. -/
  drafts : ∀ key key' v v', t.versions.get? key = some v → t.versions.get? key' = some v' →
    v.post = v'.post → v.published = none → v'.published = none → key = key'

/-- What the schema checks when a transaction is committed: a post points to no version, or to one
of its own. -/
def Tables.PointsHome (t : Tables) : Prop :=
  ∀ id post, t.posts.get? id = some post → ∀ key, post.current = some key →
    ∃ v, t.versions.get? key = some v ∧ v.post = id

/-! ## Tables that stand for a blog -/

namespace Represents

variable {t : Tables} {b : Blog} (hr : Represents t b)

include hr

theorem checked : t.Checked where
  numbers key v hget := by
    obtain ⟨-, hmem⟩ := (hr.versions key v).mp hget
    cases hpost : b.get? v.post with
    | none => simp [Blog.versionsOf_of_none hpost] at hmem
    | some h => exact (History.number_of_mem (Blog.versionsOf_of_get? hpost ▸ hmem)).1
  places := by
    refine Table.distinct_iff.mpr fun key key' v v' hget hget' hplace => ?_
    obtain ⟨hpost, hnumber⟩ := Prod.mk.inj hplace
    obtain ⟨rfl, hmem⟩ := (hr.versions key v).mp hget
    obtain ⟨rfl, hmem'⟩ := (hr.versions key' v').mp hget'
    exact congrArg Version.id (Blog.eq_of_number hmem (hpost ▸ hmem') hnumber)
  drafts key key' v v' hget hget' hpost hdraft hdraft' := by
    obtain ⟨rfl, hmem⟩ := (hr.versions key v).mp hget
    obtain ⟨rfl, hmem'⟩ := (hr.versions key' v').mp hget'
    rw [← hpost] at hmem'
    -- a draft has the greatest number of its post
    have hnumber : ∀ w ∈ b.versionsOf v.post, w.published = none →
        w.number = (b.versionsOf v.post).length := by
      intro w hw hwdraft
      by_cases hlast : w.number = (b.versionsOf v.post).length
      · exact hlast
      have hpublished : w.published.isSome := by
        cases hhistory : b.get? v.post with
        | none => simp [Blog.versionsOf_of_none hhistory] at hw
        | some h =>
          rw [Blog.versionsOf_of_get? hhistory] at hw hlast
          exact History.isSome_published_of_number hw hlast
      rw [hwdraft] at hpublished
      cases hpublished
    have hsame := (hnumber v hmem hdraft).trans (hnumber v' hmem' hdraft').symm
    exact congrArg Version.id (Blog.eq_of_number hmem hmem' hsame)

theorem pointsHome : t.PointsHome := by
  intro id post hpost key hcurrent
  rw [hr.posts] at hpost
  obtain ⟨h, hget, rfl⟩ := Option.map_eq_some_iff.mp hpost
  obtain ⟨v, hshown, rfl⟩ := Option.map_eq_some_iff.mp hcurrent
  have hmem : v ∈ b.versionsOf id := by
    rw [Blog.versionsOf_of_get? hget]
    exact List.mem_of_getLast? (h.shown?_eq id ▸ hshown)
  exact ⟨v, hr.get?_of_mem hmem, Blog.post_of_mem_versionsOf hmem⟩

/-- If the latest version of a post is published, all its versions are. -/
theorem isSome_published {id key : Uuid} {latest v : Version}
    (hlatest : latestVersion? t.versions.rows id = some latest)
    (hpublished : latest.published.isSome)
    (hget : t.versions.get? key = some v) (hpost : v.post = id) : v.published.isSome := by
  obtain ⟨-, hmem⟩ := (hr.versions key v).mp hget
  rw [hpost] at hmem
  cases hhistory : b.get? id with
  | none => simp [Blog.versionsOf_of_none hhistory] at hmem
  | some h =>
    cases hdraft : h.draft with
    | none =>
      rw [Blog.versionsOf_of_get? hhistory, History.versions_of_no_draft hdraft] at hmem
      exact History.isSome_published_of_mem hmem
    | some d =>
      rw [hr.latest_of_draft hhistory hdraft] at hlatest
      cases hlatest
      cases hpublished

end Represents

/-! ## Calls -/

/-- A version may be written: a new one has a positive number, and it is no draft unless the post
has none; a stored one does not become a draft again. -/
def Call.Guarded (t : Tables) : Call → Prop
  | createVersion v => 1 ≤ v.number ∧ ∀ key w, t.versions.get? key = some w → w.post = v.post →
      w.published.isSome
  | updateVersion v => ∀ w, t.versions.get? v.id = some w → w.published.isSome →
      v.published.isSome
  | _ => True

namespace Tables.Checked

variable {t t' : Tables} (h : t.Checked)

include h

theorem congr (hversions : t'.versions = t.versions) : t'.Checked where
  numbers := hversions ▸ h.numbers
  places := hversions ▸ h.places
  drafts := hversions ▸ h.drafts

theorem withVersion {v : Version} (hplaces : (t.withVersion v).versions.Distinct Version.place)
    (hnumber : 1 ≤ v.number)
    (hdraft : v.published = none → ∀ key w, t.versions.get? key = some w → w.post = v.post →
      w.published = none → key = v.id) : (t.withVersion v).Checked where
  numbers key w hget := by
    rcases Table.get?_insert_cases hget with ⟨-, rfl⟩ | ⟨-, hget⟩
    · exact hnumber
    · exact h.numbers key w hget
  places := hplaces
  drafts key key' w w' hget hget' hpost hw hw' := by
    rcases Table.get?_insert_cases hget with ⟨rfl, rfl⟩ | ⟨-, hold⟩ <;>
      rcases Table.get?_insert_cases hget' with ⟨hkey', rfl⟩ | ⟨-, hold'⟩
    · exact hkey'.symm
    · exact (hdraft hw key' w' hold' hpost.symm hw').symm
    · exact (hdraft hw' key w hold hpost hw).trans hkey'.symm
    · exact h.drafts key key' w w' hold hold' hpost hw hw'

theorem withoutVersion (id : Uuid) : (t.withoutVersion id).Checked where
  numbers key v hget := h.numbers key v (Table.get?_of_erase hget)
  places := h.places.erase id
  drafts key key' v v' hget hget' :=
    h.drafts key key' v v' (Table.get?_of_erase hget) (Table.get?_of_erase hget')

theorem createVersion (hwf : t.WellFormed) {v : Version}
    (hguard : (Call.createVersion v).Guarded t) : (t.call (.createVersion v)).2.Checked := by
  have hwritten : (t.call (.createVersion v)).2 = t ∨
      (t.call (.createVersion v)).2 = t.withVersion v := by
    simp only [Tables.call]
    split
    · exact .inl rfl
    · split
      · exact .inl rfl
      · exact .inr rfl
  have hplaces := (hwf.call (.createVersion v)).places
  rcases hwritten with hwritten | hwritten
  · rw [hwritten]
    exact h
  · rw [hwritten] at hplaces ⊢
    refine h.withVersion hplaces hguard.1 fun _ key w hget hpost hdraft => ?_
    have hpublished := hguard.2 key w hget hpost
    rw [hdraft] at hpublished
    cases hpublished

theorem updateVersion (hwf : t.WellFormed) {v : Version}
    (hguard : (Call.updateVersion v).Guarded t) : (t.call (.updateVersion v)).2.Checked := by
  cases hstored : t.versions.get? v.id with
  | none =>
    have hcall : (t.call (.updateVersion v)).2 = t := by simp only [Tables.call, hstored]
    exact hcall.symm ▸ h
  | some stored =>
    have hid : stored.id = v.id := hwf.versions v.id stored hstored
    have hplaces := (hwf.call (.updateVersion v)).places
    simp only [Tables.call, hstored] at hplaces ⊢
    refine h.withVersion hplaces (h.numbers v.id stored hstored) ?_
    intro hdraft key w hget hpost hwdraft
    have hstill : stored.published = none := by
      cases hpublished : stored.published with
      | none => rfl
      | some at_ =>
        have hsome := hguard stored hstored (by rw [hpublished]; rfl)
        rw [hdraft] at hsome
        cases hsome
    exact (h.drafts key v.id w stored hget hstored hpost hwdraft hstill).trans hid.symm

/-- A guarded call keeps what is checked after it, whether it fails or not. -/
theorem call (hwf : t.WellFormed) (c : Call) (hguard : c.Guarded t) : (t.call c).2.Checked := by
  cases c with
  | createVersion v => exact h.createVersion hwf hguard
  | updateVersion v => exact h.updateVersion hwf hguard
  | deleteVersion id =>
    simp only [Tables.call]
    split
    · exact h.withoutVersion id
    · exact h
  | attach links => exact h.congr (t.attach_spares links).2
  | createPost _ | createCategory _ =>
    simp only [Tables.call]
    split <;> exact h.congr rfl
  | updateCategory _ =>
    simp only [Tables.call]
    split
    · exact h
    · split <;> exact h.congr rfl
  | updatePost _ =>
    simp only [Tables.call]
    split <;> exact h.congr rfl
  | lockPost _ | lockLatestVersion _ | lockVersion _ | lockCategory _ | findCategoryByName _
  | findCategories _ => exact h

end Tables.Checked

/-- What the store checks and what only the schema would. -/
structure Tables.Sound (t : Tables) : Prop where
  wellFormed : t.WellFormed
  checked : t.Checked

theorem Tables.Sound.call {t : Tables} (h : t.Sound) (c : Call) (hguard : c.Guarded t) :
    (t.call c).2.Sound :=
  ⟨h.wellFormed.call c, h.checked.call h.wellFormed c hguard⟩

/-! ## Bodies of transactions -/

section

variable {α : Type} {Q : α → Tables → Prop} {t : Tables}

/-- A guarded call leaves sound tables, and what is done after its success starts with them. -/
theorem through_call (h : t.Sound) {c : Call} {Q : c.Answer → Tables → Prop} (hguard : c.Guarded t)
    (hQ : ∀ a t', t.call c = (.ok a, t') → t'.Sound → Q a t') :
    (Task.call c).Through Tables.Sound Q t := by
  have hsound := h.call c hguard
  refine .call hsound fun a t' hcall => hQ a t' hcall ?_
  rw [hcall] at hsound
  exact hsound

/-- What needs a post and its latest version is done with both or not at all. -/
theorem Posts.through_locks (h : t.Sound) {id : Uuid} {f : Post → Version → Task α}
    (hf : ∀ post latest, latestVersion? t.versions.rows id = some latest →
      (f post latest).Through Tables.Sound Q t) :
    (do let post ← Posts.lockPost id
        let latest ← Posts.lockLatest id
        f post latest : Task α).Through Tables.Sound Q t := by
  refine .bind (.bind (through_call h trivial fun post? t' hcall _ => ?_))
  cases hcall
  refine .require fun post _ => .bind (.bind (through_call h trivial fun latest? t' hcall _ => ?_))
  cases hcall
  exact .require fun latest hlatest => hf post latest hlatest

/-- The first version of a post is written after the post, which is new and has no other. -/
theorem Posts.through_createIn (h : t.Sound) (title content : String) (now : Instant) :
    (createIn title content now).Through Tables.Sound (fun _ _ => True) t := by
  refine .bind (.takeId fun post => .bind (through_call h trivial fun _ t₁ hcreate h₁ => ?_))
  refine .bind (.takeId fun version => .bind (through_call h₁ ⟨Int.le_refl 1, ?_⟩ ?_))
  · intro key w hget hpost
    obtain ⟨hnew, hversions⟩ : t.posts.contains post = false ∧ t₁.versions = t.versions := by
      simp only [Tables.call] at hcreate
      split at hcreate
      · cases hcreate
      · rename_i hnew
        cases hcreate
        exact ⟨Bool.eq_false_iff.mpr hnew, rfl⟩
    -- no version refers to a post that was not there
    have howner := h.wellFormed.owners key w (hversions ▸ hget)
    rw [hpost] at howner
    rw [show (Version.firstDraft version (Post.new post now).id title content now).post = post
      from rfl, hnew] at howner
    cases howner
  · intro _ t₂ _ h₂
    exact .bind (through_call h₂ trivial fun _ _ _ _ => .pure trivial)

variable {b : Blog} (hr : Represents t b)

include hr

theorem Posts.through_updateIn (h : t.Sound) (id : Uuid) (title content : Option String)
    (now : Instant) : (updateIn id title content now).Through Tables.Sound (fun _ _ => True) t := by
  refine through_locks h fun post latest hlatest => ?_
  have hstored := h.wellFormed.get?_latest hlatest
  have hnumber := h.checked.numbers latest.id latest hstored
  cases hpublished : latest.published with
  | none =>
    simp only [Version.revise, Version.status, hpublished, Status.of]
    refine .bind (through_call h ?_ fun _ t₁ _ h₁ => .bind (.report _ (.pure trivial)))
    intro w hw hwpublished
    rw [hstored] at hw
    cases hw
    rw [hpublished] at hwpublished
    cases hwpublished
  | some published =>
    simp only [Version.revise, Version.status, hpublished, Status.of]
    refine .bind (.takeId fun version => .bind (through_call h ⟨?_, ?_⟩ fun _ t₁ _ h₁ => ?_))
    · change 1 ≤ latest.number + 1
      omega
    · intro key w hget hpost
      have hown : latest.post = id := (mem_of_latestVersion? hlatest).2
      exact hr.isSome_published hlatest (by rw [hpublished]; rfl) hget (hpost.trans hown)
    · exact .bind (through_call h₁ trivial fun _ _ _ _ => .bind (.report _ (.pure trivial)))

omit hr in
theorem Posts.through_publishIn (h : t.Sound) (id : Uuid) (now : Instant) :
    (publishIn id now).Through Tables.Sound (fun _ _ => True) t := by
  refine through_locks h fun post latest hlatest => .bind (.ofExcept fun v hpublish => ?_)
  have hpublished : v.published.isSome := by
    unfold Version.publish at hpublish
    split at hpublish
    · cases hpublish
    · cases hpublish
      rfl
  refine .bind (through_call h (fun _ _ _ => hpublished) fun _ t₁ _ h₁ => ?_)
  exact .bind (through_call h₁ trivial fun _ _ _ _ => .bind (.report _ (.pure trivial)))

omit hr in
theorem Posts.through_deleteDraftIn (h : t.Sound) (id : Uuid) (now : Instant) :
    (deleteDraftIn id now).Through Tables.Sound (fun _ _ => True) t := by
  refine through_locks h fun post latest hlatest => .bind (.ofExcept fun _ _ => ?_)
  refine .bind (through_call h trivial fun _ t₁ _ h₁ => ?_)
  refine .bind (through_call h₁ trivial fun _ t₂ _ h₂ => ?_)
  exact .bind (through_call h₂ trivial fun _ _ _ _ => .report _ trivial)

omit hr in
/-- What writes neither posts nor versions keeps the tables sound. -/
theorem through_of_spares (h : t.Sound) {x : Task α} (hx : x.Only Access.SparesPosts) :
    x.Through Tables.Sound (fun _ _ => True) t := by
  refine .of_only hx (fun a t ha h => ?_) h
  obtain ⟨c, rfl, hspares⟩ := ha
  exact ⟨h.wellFormed.call c, h.checked.congr (hspares t).2⟩

/-- All through the transaction of an operation the tables are sound. -/
theorem plan_through (h : t.Sound) (sanitizer : Sanitizer) (op : Operation) :
    (op.plan sanitizer).Through Tables.Sound t := by
  cases op with
  | createPost r =>
    simp only [Operation.plan]
    split
    · exact trivial
    · exact fun now => .map _ (Posts.through_createIn h _ _ now)
  | updatePost id r =>
    simp only [Operation.plan]
    split
    · exact trivial
    · exact fun now => .map _ (Posts.through_updateIn hr h id _ _ now)
  | publishPost id => exact fun now => .map _ (Posts.through_publishIn h id now)
  | deleteDraft id => exact fun now => .map _ (Posts.through_deleteDraftIn h id now)
  | getPost id | getVersion id | getCategory id => exact trivial
  | createCategory r =>
    simp only [Operation.plan]
    split
    · exact trivial
    · exact fun now => .map _ (through_of_spares h (Categories.only_createIn _ now))
  | updateCategory id r =>
    simp only [Operation.plan]
    split
    · exact trivial
    · exact fun now => .map _ (through_of_spares h (Categories.only_renameIn id _ now))
  | attach r =>
    simp only [Operation.plan]
    split
    · exact trivial
    · exact fun now => .map _ (through_of_spares h (Categories.only_attachIn r now))

end

/-! ## Runs -/

theorem visits_sound (s : Surroundings) (sanitizer : Sanitizer) (ops : List Operation) {w : World}
    {t : Tables} {b : Blog} (hfree : w.store.Free t) (hr : Represents t b) (hwf : t.WellFormed) :
    ∀ v ∈ visitsAll s sanitizer ops w, v.store.tables.Sound ∧
      (v.access = .commit → v.done = true → v.store.tables.PointsHome) := by
  induction ops generalizing w t b with
  | nil => exact List.forall_mem_nil _
  | cons op rest ih =>
    have hsound : t.Sound := ⟨hwf, hr.checked⟩
    obtain ⟨t', b', hfree', hr', hwf'⟩ : ∃ t' b', (op.perform s sanitizer w).2.store.Free t' ∧
        Represents t' b' ∧ t'.WellFormed := by
      cases perform_cases s sanitizer op hfree with
      | struck _ _ hstore => exact ⟨t, b, hstore, hr, hwf⟩
      | done _ _ hstore _ _ _ =>
        obtain ⟨-, hr'⟩ := plan_follows hr sanitizer (s.clock w.clockReads)
          (fun n => s.ids (w.idsUsed + n)) op
        exact ⟨_, _, hstore, hr', effect_wellFormed sanitizer _ _ op hwf⟩
    refine List.forall_mem_append.mpr ⟨fun v hv => ?_, ih hfree' hr' hwf'⟩
    obtain ⟨htables, hlasts⟩ :=
      op.visits_through sanitizer (plan_through hr hsound sanitizer op) hfree hsound v hv
    refine ⟨htables, fun hcommit hdone => ?_⟩
    rw [(hlasts hcommit hdone).1, hfree']
    exact hr'.pointsHome

/-- **The constraints of the schema.** In every run, with any surroundings and whatever faults
strike: after every single access to the store, also in the middle of a transaction, what the schema
would check after every statement holds, and after every commit that was carried out what it would
check then. The accesses are those of the run, and they end with its store. -/
theorem constraints_hold (s : Surroundings) (sanitizer : Sanitizer) (ops : List Operation) :
    let ran := performAll s sanitizer ops World.initial
    let visits := visitsAll s sanitizer ops World.initial
    ran.2.trace = (visits.map (·.access)).reverse ∧
    ran.2.store = (storeAfter .empty visits).abandon ∧
    (∀ v ∈ visits, v.store.tables.Checked ∧
      (v.access = .commit → v.done = true → v.store.tables.PointsHome)) ∧
    ran.2.store.tables.Checked ∧ ran.2.store.tables.PointsHome := by
  obtain ⟨t, b, hfree, hr⟩ := performAll_represents s sanitizer ops (w := World.initial) rfl
    represents_empty
  have htables : (performAll s sanitizer ops World.initial).2.store.tables = t :=
    congrArg Store.tables hfree
  intro ran visits
  refine ⟨(trace_performAll s sanitizer ops _).trans (List.append_nil _),
    store_performAll s sanitizer ops _ rfl, fun v hv => ?_, ?_, ?_⟩
  · obtain ⟨hsound, hpoints⟩ :=
      visits_sound s sanitizer ops (w := World.initial) rfl represents_empty .empty v hv
    exact ⟨hsound.checked, hpoints⟩
  · exact htables.symm ▸ hr.checked
  · exact htables.symm ▸ hr.pointsHome

end Weblog
