import Weblog.Proofs.Blog.Drafting

/-!
# Operations on different posts

All posts have their versions in one table and the links of these in another, and each operation on
a post searches these tables. Still an operation on one post does not see another post.

* `Tables.Touched`: what an operation on a post leaves alone, whatever becomes of it
  (`perform_touches`).
* `Blog.step_congr`: what it answers and makes of its post depends on nothing but the history of
  that post, as long as the identifier that it may take is not in use.
* `posts_independent`: so two operations on different posts may be done in either order.
-/

namespace Weblog

/-- The post that an operation edits, publishes or deletes the draft of. -/
def Operation.target? : Operation → Option Uuid
  | updatePost id _ | publishPost id | deleteDraft id => some id
  | createPost _ | getPost _ | getVersion _ | createCategory _ | updateCategory .. | getCategory _
  | attach _ => none

/-! ## What is left alone -/

/-- Of the posts and their versions only those of one post were touched. Under an identifier there
may be a new version, of the versions that are gone the links are gone, and all others are there. -/
structure Tables.Touched (t t' : Tables) (post fresh : Uuid) : Prop where
  posts : ∀ id, id ≠ post → t'.posts.get? id = t.posts.get? id
  versions : ∀ key v, v.post ≠ post →
    (t'.versions.get? key = some v ↔ t.versions.get? key = some v)
  unused : ∀ key, key ≠ fresh → t.versions.get? key = none → t'.versions.get? key = none
  links : ∀ key, t'.links.get? key =
    if t'.versions.contains key.1 then t.links.get? key else none
  categories : t'.categories = t.categories

namespace Tables

variable {t t' : Tables} {post fresh : Uuid}

/-- A version that is not stored has no links, so to keep the links of those that are is to keep
all. -/
theorem WellFormed.links_eq_of_stored (hwf : t.WellFormed)
    (hstored : ∀ id, t.versions.contains id = true → t'.versions.contains id = true)
    (key : Uuid × Uuid) :
    t.links.get? key = if t'.versions.contains key.1 then t.links.get? key else none := by
  cases hversion : t'.versions.contains key.1 with
  | true => rfl
  | false =>
    have hunused : t.versions.get? key.1 = none := by
      rw [← Table.contains_eq_false_iff, Bool.eq_false_iff]
      intro hthere
      rw [hstored _ hthere] at hversion
      cases hversion
    exact hwf.get?_links_of_unused hunused rfl

namespace Touched

theorem refl (hwf : t.WellFormed) : t.Touched t post fresh where
  posts _ _ := rfl
  versions _ _ _ := Iff.rfl
  unused _ _ hunused := hunused
  links := hwf.links_eq_of_stored fun _ hthere => hthere
  categories := rfl

/-- The post is written. -/
theorem withPost {p : Post} (h : t.Touched t' post fresh) (hp : p.id = post) :
    t.Touched (t'.withPost p) post fresh :=
  { h with
    posts := fun id hne =>
      (Table.get?_insert _ _ _ _).trans ((if_neg (hp ▸ hne)).trans (h.posts id hne)) }

/-- A version of the post is written, over another of its versions or under the identifier that may
be taken. -/
theorem withVersion {v : Version} (hwf : t.WellFormed) (hv : v.post = post)
    (hslot : v.id = fresh ∧ t.versions.get? v.id = none ∨
      ∃ old, t.versions.get? v.id = some old ∧ old.post = post) :
    t.Touched (t.withVersion v) post fresh where
  posts _ _ := rfl
  versions key w hw := by
    refine (congrArg (· = some w) (Table.get?_insert _ v.id key v)).to_iff.trans ?_
    by_cases hkey : key = v.id
    · rw [if_pos hkey, hkey]
      constructor
      · intro heq
        cases heq
        exact absurd hv hw
      · intro hget
        obtain ⟨-, hnone⟩ | ⟨old, hold, hpost⟩ := hslot
        · cases hnone.symm.trans hget
        · cases hold.symm.trans hget
          exact absurd hpost hw
    · rw [if_neg hkey]
  unused key hkey hunused := by
    refine (Table.get?_insert _ _ _ _).trans ((if_neg ?_).trans hunused)
    rintro rfl
    obtain ⟨hid, -⟩ | ⟨old, hold, -⟩ := hslot
    · exact hkey hid
    · cases hunused.symm.trans hold
  links := hwf.links_eq_of_stored fun _ hthere => Table.contains_insert v hthere
  categories := rfl

/-- A version of the post is removed, together with its links. -/
theorem withoutVersion {old : Version} (hwf : t.WellFormed)
    (hold : t.versions.get? old.id = some old) (hpost : old.post = post) :
    t.Touched (t.withoutVersion old.id) post fresh where
  posts _ _ := rfl
  versions key w hw := by
    refine (congrArg (· = some w) (Table.get?_erase _ old.id key)).to_iff.trans ?_
    by_cases hkey : key = old.id
    · rw [if_pos hkey, hkey, hold]
      constructor
      · intro heq
        cases heq
      · intro heq
        cases heq
        exact absurd hpost hw
    · rw [if_neg hkey]
  unused key _ hunused := by
    refine (Table.get?_erase _ _ _).trans ?_
    rw [hunused, ite_self]
  links key := by
    refine (Table.get?_eraseWhere _ _ _).trans ?_
    by_cases hkey : key.1 = old.id
    · have hgone : (t.withoutVersion old.id).versions.contains key.1 = false :=
        Table.contains_eq_false_iff.mpr ((Table.get?_erase _ _ _).trans (if_pos hkey))
      rw [if_pos (decide_eq_true hkey), hgone]
      rfl
    · have hsame : (t.withoutVersion old.id).versions.contains key.1 = t.versions.contains key.1 :=
        congrArg Option.isSome ((Table.get?_erase _ _ _).trans (if_neg hkey))
      rw [if_neg (by simpa using hkey), hsame]
      exact hwf.links_eq_of_stored (fun _ hthere => hthere) key
  categories := rfl

end Touched

end Tables

section

variable {sanitizer : Sanitizer} {now : Instant} {fresh : Nat → Uuid} {t t' : Tables}
  {op : Operation} {post : Uuid}

/-- An operation on a post that succeeds touches no other. -/
theorem Transition.touches {reply : Reply} {events : List Event}
    (h : Transition sanitizer now fresh t op reply t' events) (hwf : t.WellFormed)
    (hop : op.target? = some post) : t.Touched t' post (fresh 0) := by
  have hpost {id : Uuid} {latest : Version}
      (hlatest : latestVersion? t.versions.rows id = some latest) : latest.post = id :=
    (mem_of_latestVersion? hlatest).2
  have hrewrite {id : Uuid} {latest v : Version}
      (hlatest : latestVersion? t.versions.rows id = some latest)
      (hsame : v.id = latest.id ∧ v.post = latest.post) :
      t.Touched (t.withVersion v) id (fresh 0) :=
    .withVersion hwf (hsame.2.trans (hpost hlatest))
      (.inr ⟨latest, hsame.1 ▸ hwf.get?_latest hlatest, hpost hlatest⟩)
  cases h with
  | @look op _ hlooks =>
    cases op with
    | updatePost | publishPost | deleteDraft => cases hlooks
    | createPost | getPost | getVersion | createCategory | updateCategory | getCategory | attach =>
      cases hop
  | start | createCategory | rename | attach => cases hop
  | amend hlatest _ hv =>
    cases hop
    exact hrewrite hlatest ⟨by rw [hv]; rfl, by rw [hv]; rfl⟩
  | @stack _ _ found latest v hfound hlatest _ hv hunused =>
    cases hop
    have hnew : v.id = fresh 0 ∧ v.post = latest.post := by
      rw [hv]
      exact ⟨rfl, rfl⟩
    have hid : (found.pointTo v.id now).id = post := hwf.posts post found hfound
    exact (Tables.Touched.withVersion hwf (hnew.2.trans (hpost hlatest))
      (.inl ⟨hnew.1, hunused⟩)).withPost hid
  | @publish _ found latest v hfound hlatest _ hv =>
    cases hop
    have hid : (found.pointTo v.id now).id = post := hwf.posts post found hfound
    exact (hrewrite hlatest ⟨by rw [hv], by rw [hv]⟩).withPost hid
  | @drop _ found latest current hfound hlatest _ _ =>
    cases hop
    have hid : (found.pointTo current now).id = post := hwf.posts post found hfound
    exact (Tables.Touched.withoutVersion hwf (hwf.get?_latest hlatest)
      (hpost hlatest)).withPost hid

variable (sanitizer now fresh) in
theorem effect_touches (hwf : t.WellFormed) (hop : op.target? = some post) :
    t.Touched (op.effect sanitizer now fresh t).tables post (fresh 0) := by
  cases hanswer : (op.effect sanitizer now fresh t).answer with
  | error e =>
    rw [Operation.effect_tables_of_error hanswer]
    exact .refl hwf
  | ok reply => exact (effect_transition hwf hanswer).touches hwf hop

variable (sanitizer) in
/-- An operation on a post touches no other, whatever becomes of it. -/
theorem perform_touches (s : Surroundings) {w : World} (hfree : w.store.Free t) (hwf : t.WellFormed)
    (hop : op.target? = some post) : ∃ t', (op.perform s sanitizer w).2.store.Free t' ∧
      t.Touched t' post (s.ids w.idsUsed) := by
  cases perform_cases s sanitizer op hfree with
  | done _ _ hstore => exact ⟨_, hstore, effect_touches sanitizer _ _ hwf hop⟩
  | struck _ _ hstore => exact ⟨t, hstore, .refl hwf⟩

end

/-! ## What is not looked at -/

namespace Blog

variable {sanitizer : Sanitizer} {now : Instant} {fresh : Nat → Uuid} {b b' : Blog}
  {categories categories' : Uuid → List Category} {op : Operation} {post id : Uuid}

theorem get?_put_congr (b b' : Blog) (id : Uuid) (h : History) :
    (b'.put id h).get? id = (b.put id h).get? id := by
  rw [get?_put, get?_put, if_pos rfl, if_pos rfl]

/-- An operation on a post leaves the histories of the others as they are. -/
theorem get?_step_of_ne (hop : op.target? = some post) (hne : id ≠ post) :
    (b.step sanitizer now fresh categories op).2.get? id = b.get? id := by
  have hstepped := b.stepped_step sanitizer now fresh categories op
  generalize (b.step sanitizer now fresh categories op).1 = answer? at hstepped
  generalize (b.step sanitizer now fresh categories op).2 = b' at hstepped ⊢
  cases hstepped with
  | spare | refused => rfl
  | start => cases hop
  | amend | stack | publish | drop =>
    cases hop
    rw [get?_put, if_neg hne]

variable (sanitizer now) in
theorem update_congr (r : UpdatePost) (hsame : b'.get? id = b.get? id)
    (hunused : b.version? (fresh 0) = none) (hunused' : b'.version? (fresh 0) = none) :
    (b'.update sanitizer now fresh id r).1 = (b.update sanitizer now fresh id r).1 ∧
      (b'.update sanitizer now fresh id r).2.get? id =
        (b.update sanitizer now fresh id r).2.get? id := by
  simp only [update, hsame, hunused, hunused']
  split
  · exact ⟨rfl, hsame⟩
  · cases b.get? id with
    | none => exact ⟨rfl, hsame⟩
    | some h =>
      dsimp only
      split
      · exact ⟨rfl, get?_put_congr b b' id _⟩
      · exact ⟨rfl, get?_put_congr b b' id _⟩
      · exact ⟨rfl, hsame⟩

theorem publish_congr (hsame : b'.get? id = b.get? id) :
    (b'.publish now id).1 = (b.publish now id).1 ∧
      (b'.publish now id).2.get? id = (b.publish now id).2.get? id := by
  simp only [Blog.publish, hsame]
  cases b.get? id with
  | none => exact ⟨rfl, hsame⟩
  | some h =>
    dsimp only
    split
    · exact ⟨rfl, get?_put_congr b b' id _⟩
    · exact ⟨rfl, hsame⟩
    · exact ⟨rfl, hsame⟩

theorem deleteDraft_congr (hsame : b'.get? id = b.get? id) :
    (b'.deleteDraft now id).1 = (b.deleteDraft now id).1 ∧
      (b'.deleteDraft now id).2.get? id = (b.deleteDraft now id).2.get? id := by
  simp only [deleteDraft, hsame]
  cases b.get? id with
  | none => exact ⟨rfl, hsame⟩
  | some h =>
    dsimp only
    split
    · exact ⟨rfl, get?_put_congr b b' id _⟩
    · exact ⟨rfl, hsame⟩
    · exact ⟨rfl, hsame⟩

variable (sanitizer now categories categories') in
/-- What an operation on a post answers and makes of its history depends on that history alone, as
long as the identifier that it may take is not in use. -/
theorem step_congr (hop : op.target? = some post) (hsame : b'.get? post = b.get? post)
    (hunused : b.version? (fresh 0) = none) (hunused' : b'.version? (fresh 0) = none) :
    (b'.step sanitizer now fresh categories' op).1 = (b.step sanitizer now fresh categories op).1 ∧
      (b'.step sanitizer now fresh categories' op).2.get? post =
        (b.step sanitizer now fresh categories op).2.get? post := by
  cases op with
  | updatePost id r =>
    cases hop
    obtain ⟨hanswer, hhistory⟩ := update_congr sanitizer now r hsame hunused hunused'
    exact ⟨congrArg some hanswer, hhistory⟩
  | publishPost id =>
    cases hop
    obtain ⟨hanswer, hhistory⟩ := publish_congr hsame
    exact ⟨congrArg some hanswer, hhistory⟩
  | deleteDraft id =>
    cases hop
    obtain ⟨hanswer, hhistory⟩ := deleteDraft_congr hsame
    exact ⟨congrArg some hanswer, hhistory⟩
  | createPost | getPost | getVersion | createCategory | updateCategory | getCategory | attach =>
    cases hop

end Blog

/-! ## One after the other -/

/-- Tables that stand for one blog hold the same posts and the same versions. -/
theorem Represents.tables_eq {t t' : Tables} {b : Blog} (hr : Represents t b)
    (hr' : Represents t' b) : t'.posts = t.posts ∧ t'.versions = t.versions := by
  refine ⟨Table.ext_get? fun id => ?_, Table.ext_get? fun id => Option.ext fun v => ?_⟩
  · rw [hr.posts, hr'.posts]
  · rw [hr.versions, hr'.versions]

/-- When two operations touched two posts one after the other, the links that are left are those of
the versions that are left. -/
theorem Tables.Touched.links_twice {t t₁ t₂ : Tables} {post post' fresh fresh' : Uuid}
    (h : t.Touched t₁ post fresh) (h' : t₁.Touched t₂ post' fresh') (hwf : t.WellFormed)
    (hunused : t.versions.get? fresh' = none) (key : Uuid × Uuid) :
    t₂.links.get? key = if t₂.versions.contains key.1 then t.links.get? key else none := by
  rw [h'.links, h.links]
  cases hlast : t₂.versions.contains key.1 with
  | false => rfl
  | true =>
    cases hfirst : t₁.versions.contains key.1 with
    | true => rfl
    | false =>
      -- what the second operation added was never there, so it has no links
      have hnew : key.1 = fresh' := by
        by_contra hne
        have hgone := h'.unused key.1 hne (Table.contains_eq_false_iff.mp hfirst)
        rw [Table.contains_eq_false_iff.mpr hgone] at hlast
        cases hlast
      exact (hwf.get?_links_of_unused (hnew ▸ hunused) rfl).symm

section

variable {sanitizer : Sanitizer} {t : Tables} {b : Blog} {op op' : Operation} {post post' : Uuid}
  {now now' : Instant} {fresh fresh' : Nat → Uuid}

/-- The machine gives an operation on a post the answer that the service gives. -/
theorem Represents.answer_step (hr : Represents t b) (hop : op.target? = some post) :
    (b.step sanitizer now fresh t.categoriesOf op).1 =
      some (op.effect sanitizer now fresh t).answer := by
  have hfollows := (plan_follows hr sanitizer now fresh op).1
  cases op with
  | updatePost | publishPost | deleteDraft => exact congrArg some (hfollows _ rfl).symm
  | createPost | getPost | getVersion | createCategory | updateCategory | getCategory | attach =>
    cases hop

variable (sanitizer now now' fresh fresh') in
/-- An operation on a post does the same to it after an operation on another post as before. -/
theorem effect_after (hwf : t.WellFormed) (hr : Represents t b) (hop : op.target? = some post)
    (hop' : op'.target? = some post') (hne : post ≠ post')
    (hunused : t.versions.get? (fresh 0) = none) (hother : fresh 0 ≠ fresh' 0) :
    let t' := (op'.effect sanitizer now' fresh' t).tables
    let b' := (b.step sanitizer now' fresh' t.categoriesOf op').2
    (op.effect sanitizer now fresh t').answer = (op.effect sanitizer now fresh t).answer ∧
      (b'.step sanitizer now fresh t'.categoriesOf op).2.get? post =
        (b.step sanitizer now fresh t.categoriesOf op).2.get? post := by
  intro t' b'
  have hr' : Represents t' b' := (plan_follows hr sanitizer now' fresh' op').2
  have htouched : t.Touched t' post' (fresh' 0) :=
    effect_touches sanitizer now' fresh' hwf hop'
  have hstill : t'.versions.get? (fresh 0) = none := htouched.unused _ hother hunused
  have hsame : b'.get? post = b.get? post := Blog.get?_step_of_ne hop' hne
  obtain ⟨hanswer, hhistory⟩ := Blog.step_congr sanitizer now t.categoriesOf t'.categoriesOf hop
    hsame ((hr.version?_eq _).trans hunused) ((hr'.version?_eq _).trans hstill)
  rw [hr.answer_step hop, hr'.answer_step hop] at hanswer
  exact ⟨Option.some.inj hanswer, hhistory⟩

variable (sanitizer now now' fresh fresh') in
/-- **Two orders.** Operations on different posts, each with its own instant and its own identifier,
leave the same tables in either order. -/
theorem effects_commute (hwf : t.WellFormed) (hr : Represents t b) (hop : op.target? = some post)
    (hop' : op'.target? = some post') (hne : post ≠ post')
    (hunused : t.versions.get? (fresh 0) = none) (hunused' : t.versions.get? (fresh' 0) = none)
    (hother : fresh 0 ≠ fresh' 0) :
    (op'.effect sanitizer now' fresh' (op.effect sanitizer now fresh t).tables).tables =
      (op.effect sanitizer now fresh (op'.effect sanitizer now' fresh' t).tables).tables := by
  let t₁ := (op.effect sanitizer now fresh t).tables
  let t₂ := (op'.effect sanitizer now' fresh' t).tables
  let b₁ := (b.step sanitizer now fresh t.categoriesOf op).2
  let b₂ := (b.step sanitizer now' fresh' t.categoriesOf op').2
  have hr₁ : Represents t₁ b₁ := (plan_follows hr sanitizer now fresh op).2
  have hr₂ : Represents t₂ b₂ := (plan_follows hr sanitizer now' fresh' op').2
  have hafter : (b₂.step sanitizer now fresh t₂.categoriesOf op).2.get? post = b₁.get? post :=
    (effect_after sanitizer now now' fresh fresh' hwf hr hop hop' hne hunused hother).2
  have hafter' : (b₁.step sanitizer now' fresh' t₁.categoriesOf op').2.get? post' =
      b₂.get? post' :=
    (effect_after sanitizer now' now fresh' fresh hwf hr hop' hop hne.symm hunused'
      hother.symm).2
  have hblogs : (b₁.step sanitizer now' fresh' t₁.categoriesOf op').2 =
      (b₂.step sanitizer now fresh t₂.categoriesOf op).2 := by
    refine Table.ext_get? fun id => ?_
    by_cases hid : id = post
    · rw [hid, hafter, Blog.get?_step_of_ne hop' hne]
    · by_cases hid' : id = post'
      · rw [hid', hafter', Blog.get?_step_of_ne hop hne.symm]
      · rw [Blog.get?_step_of_ne hop' hid', Blog.get?_step_of_ne hop hid,
          Blog.get?_step_of_ne hop hid, Blog.get?_step_of_ne hop' hid']
  have hr₁₂ := (plan_follows hr₁ sanitizer now' fresh' op').2
  have hr₂₁ := (plan_follows hr₂ sanitizer now fresh op).2
  obtain ⟨hposts, hversions⟩ := hr₂₁.tables_eq (hblogs ▸ hr₁₂)
  have h₁ : t.Touched t₁ post (fresh 0) := effect_touches sanitizer now fresh hwf hop
  have h₂ : t.Touched t₂ post' (fresh' 0) := effect_touches sanitizer now' fresh' hwf hop'
  have h₁₂ := effect_touches sanitizer now' fresh' (effect_wellFormed sanitizer now fresh op hwf)
    hop'
  have h₂₁ := effect_touches sanitizer now fresh (effect_wellFormed sanitizer now' fresh' op' hwf)
    hop
  refine Tables.ext_get? (fun key => congrArg (·.get? key) hposts)
    (fun key => congrArg (·.get? key) hversions) ?_ fun key => ?_
  · rw [h₁₂.categories, h₂₁.categories, h₁.categories, h₂.categories]
  · rw [h₁.links_twice h₁₂ hwf hunused', h₂.links_twice h₂₁ hwf hunused]
    exact congrArg (fun versions : Table Uuid Version =>
      if versions.contains key.1 then t.links.get? key else none) hversions

end

/-! ## Runs -/

/-- **Operations on different posts.** Whatever was done before, with whatever surroundings, of two
operations on different posts: the first, whatever faults strike it, leaves the post of the other as
it is, its versions, their links and all categories. And when none strikes, and each has an instant
of its own and an identifier of its own that no version has, they leave the same tables in either
order, and each gives the same answer. -/
theorem posts_independent (s' : Surroundings) (sanitizer sanitizer' : Sanitizer)
    (ops : List Operation) (op op' : Operation) (post post' : Uuid) :
    let w := (performAll s' sanitizer' ops World.initial).2
    let t := w.store.tables
    op.target? = some post → op'.target? = some post' → post ≠ post' →
    (∀ s : Surroundings, ∃ t', (op.perform s sanitizer w).2.store.Free t' ∧
      t'.posts.get? post' = t.posts.get? post' ∧
      (∀ key v, v.post = post' →
        (t'.versions.get? key = some v ↔ t.versions.get? key = some v)) ∧
      (∀ key v, t.versions.get? key = some v → v.post = post' →
        ∀ category, t'.links.get? (key, category) = t.links.get? (key, category)) ∧
      t'.categories = t.categories) ∧
    ∀ (now now' : Instant) (id id' : Uuid), t.versions.get? id = none →
      t.versions.get? id' = none → id ≠ id' →
      let first := op.perform (.undisturbed (fun _ => now) fun _ => id) sanitizer
      let second := op'.perform (.undisturbed (fun _ => now') fun _ => id') sanitizer
      (second (first w).2).2.store = (first (second w).2).2.store ∧
        (first w).1 = (first (second w).2).1 ∧ (second (first w).2).1 = (second w).1 := by
  obtain ⟨start, b, hfree, hr⟩ := performAll_represents s' sanitizer' ops (w := World.initial) rfl
    represents_empty
  obtain ⟨start', hfree', hwf⟩ := performAll_wellFormed s' sanitizer' ops (w := World.initial) rfl
    .empty
  obtain rfl : start = start' := congrArg Store.tables (hfree.symm.trans hfree')
  intro w t hop hop' hne
  obtain rfl : t = start := congrArg Store.tables hfree
  refine ⟨fun s => ?_, fun now now' id id' hunused hunused' hother => ?_⟩
  · obtain ⟨t', hstore, htouched⟩ := perform_touches sanitizer s hfree hwf hop
    have hkept : ∀ key v, v.post = post' →
        (t'.versions.get? key = some v ↔ t.versions.get? key = some v) := fun key v hv =>
      htouched.versions key v (hv ▸ hne.symm)
    refine ⟨t', hstore, htouched.posts post' hne.symm, hkept, fun key v hget hv category => ?_,
      htouched.categories⟩
    have hthere : t'.versions.contains key = true :=
      Table.contains_iff.mpr ⟨v, (hkept key v hv).mpr hget⟩
    rw [htouched.links, if_pos hthere]
  · intro first second
    obtain ⟨hfirst, hfree₁⟩ := perform_undisturbed sanitizer op now id hfree
    obtain ⟨hsecond, hfree₂⟩ := perform_undisturbed sanitizer op' now' id' hfree
    obtain ⟨hlater, hstore₁⟩ := perform_undisturbed sanitizer op' now' id' hfree₁
    obtain ⟨hlater', hstore₂⟩ := perform_undisturbed sanitizer op now id hfree₂
    have hanswer := (effect_after sanitizer now now' (fun _ => id) (fun _ => id') hwf hr hop hop'
      hne hunused hother).1
    have hanswer' := (effect_after sanitizer now' now (fun _ => id') (fun _ => id) hwf hr hop' hop
      hne.symm hunused' hother.symm).1
    refine ⟨?_, ?_, ?_⟩
    · have hcommute := effects_commute sanitizer now now' (fun _ => id) (fun _ => id') hwf hr hop
        hop' hne hunused hunused' hother
      exact hstore₁.trans ((congrArg (Store.mk · none) hcommute).trans hstore₂.symm)
    · exact hfirst.trans ((congrArg Outcome.answered hanswer.symm).trans hlater'.symm)
    · exact hlater.trans ((congrArg Outcome.answered hanswer').trans hsecond.symm)

/-- The draft of one post is deleted with its link, and on another post, which is published, a draft
is stacked. -/
theorem posts_independent_of_two :
    let s : Surroundings := .serving [] ((List.range 5).map .ofNat)
    let ops : List Operation := [.createPost ⟨"title", "text"⟩, .createPost ⟨"other", "text"⟩,
      .createCategory ⟨"news"⟩, .attach ⟨.ofNat 1, [.ofNat 4]⟩, .publishPost (.ofNat 2)]
    let w := (performAll s .identity ops World.initial).2
    let later : Instant := ⟨1, 0, by decide⟩
    let first := (Operation.deleteDraft (.ofNat 0)).perform
      (.undisturbed (fun _ => .epoch) fun _ => .ofNat 5) .identity
    let second := (Operation.updatePost (.ofNat 2) ⟨none, some "more"⟩).perform
      (.undisturbed (fun _ => later) fun _ => .ofNat 6) .identity
    let reply : PostReply := { post := .ofNat 2, version := .ofNat 6, number := 2, title := "other"
                               content := "more" }
    w.store.tables.links.contains (.ofNat 1, .ofNat 4) = true ∧
    (first w).1 = .answered (.ok .done) ∧ (second (first w).2).1 = .answered (.ok (.post reply)) ∧
    (second (first w).2).2.store = (first (second w).2).2.store ∧
    (first w).1 = (first (second w).2).1 ∧ (second (first w).2).1 = (second w).1 := by
  intro s ops w later first second reply
  have hlinked : w.store.tables.links.contains (.ofNat 1, .ofNat 4) = true := by decide +kernel
  have hunused : (performAll s .identity ops World.initial).2.store.tables.versions.get?
      (.ofNat 5) = none := by decide +kernel
  have hunused' : (performAll s .identity ops World.initial).2.store.tables.versions.get?
      (.ofNat 6) = none := by decide +kernel
  have hdeleted : (first w).1 = .answered (.ok .done) := Outcome.eq_of_reply? (by decide +kernel)
  have hstacked : (second w).1 = .answered (.ok (.post reply)) :=
    Outcome.eq_of_reply? (by decide +kernel)
  have hne : Uuid.ofNat 0 ≠ Uuid.ofNat 2 := by decide +kernel
  have hother : Uuid.ofNat 5 ≠ Uuid.ofNat 6 := by decide +kernel
  obtain ⟨-, hcommute⟩ := posts_independent s .identity .identity ops (.deleteDraft (.ofNat 0))
    (.updatePost (.ofNat 2) ⟨none, some "more"⟩) (.ofNat 0) (.ofNat 2) rfl rfl hne
  obtain ⟨hstore, hanswer, hanswer'⟩ := hcommute .epoch later (.ofNat 5) (.ofNat 6) hunused hunused'
    hother
  exact ⟨hlinked, hdeleted, hanswer'.trans hstacked, hstore, hanswer, hanswer'⟩

end Weblog
