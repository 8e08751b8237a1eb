import Weblog.Proofs.Blog.Refinement
import Weblog.Proofs.Dated
import Weblog.Proofs.Traffic.Ordering

/-!
# The times of posts, versions, categories and links

A post is dated by what was done with it last: when it was made, published, had a draft stacked or
had its draft deleted. An edit that changes the draft in its place leaves no date, and neither does
what fails.

* `changeTimes`: the readings of the clock that the operations of a run leave on a post.
* `performAll_stamped`: they tell its timeline.
* `History.Opens`: the first version of a post is as old as the post.
* `times_in_order`: the times of all rows after a run.
-/

namespace Weblog

/-! ## What dates a post -/

/-- The post that an operation dates when it succeeds, by the tables before it and by its reply. An
edit dates its post if the version that the reply tells of is a new one. -/
def Operation.dated? (before : Tables) : Operation → Reply → Option Uuid
  | .createPost _, .post r => some r.post
  | .updatePost id _, .post r => if before.versions.contains r.version then none else some id
  | .publishPost id, _ | .deleteDraft id, _ => some id
  | _, _ => none

/-- The reading of the clock that an operation leaves on a post. -/
def Operation.changeTime? (s : Surroundings) (sanitizer : Sanitizer) (post : Uuid) (op : Operation)
    (w : World) : Option Instant :=
  match (op.perform s sanitizer w).1.reply? with
  | some reply =>
    if op.dated? w.store.tables reply = some post then some (s.clock w.clockReads) else none
  | none => none

/-- The readings of the clock that operations done one after another leave on a post. -/
def changeTimes (s : Surroundings) (sanitizer : Sanitizer) (post : Uuid) :
    List Operation → World → List Instant
  | [], _ => []
  | op :: rest, w =>
    (op.changeTime? s sanitizer post w).toList ++
      changeTimes s sanitizer post rest (op.perform s sanitizer w).2

theorem Outcome.reply?_of_fails {o : Outcome (Except Error Reply)} (h : o.Fails) :
    o.reply? = none := by
  rcases o with ⟨e | reply⟩ | m | _
  · rfl
  · exact absurd rfl (h reply)
  · rfl
  · rfl

theorem Operation.dated?_of_spares {op : Operation} (h : op.changesPosts = false) (before : Tables)
    (reply : Reply) : op.dated? before reply = none := by
  cases op with
  | createPost r | updatePost id r | publishPost id | deleteDraft id => cases h
  | getPost id | getVersion id | createCategory r | updateCategory id r | getCategory id
  | attach r => rfl

section

variable {t : Tables} {b : Blog}

/-- The reply of an edit tells whether it took an identifier. -/
theorem stamp?_eq_of_ok (hr : Represents t b) {sanitizer : Sanitizer} {now : Instant}
    {fresh : Nat → Uuid} {op : Operation} {reply : Reply} (post : Uuid)
    (hok : (op.effect sanitizer now fresh t).answer = .ok reply) :
    op.stamp? post now (op.effect sanitizer now fresh t).taken (.ok reply) =
      if op.dated? t reply = some post then some now else none := by
  obtain ⟨answer?, b', hstepped, hanswers, -⟩ := effect_stepped hr sanitizer now fresh op
  cases hstepped with
  | spare hspares =>
    rw [Operation.stamp?_of_spares hspares, Operation.dated?_of_spares hspares]
    exact (if_neg nofun).symm
  | refused => cases (hanswers _ rfl).symm.trans hok
  | start =>
    cases (hanswers _ rfl).symm.trans hok
    simp only [Operation.stamp?, Operation.dated?, Option.some.injEq]
  | @amend id r h d d' hget hdraft hd' =>
    have htaken := taken_of_draft hr hget hdraft hok
    cases (hanswers _ rfl).symm.trans hok
    have hstored : t.versions.contains d.version = true :=
      Table.contains_iff.mpr ⟨_, hr.get?_draft hget hdraft⟩
    have hkept : d'.version = d.version := by rw [hd']
    rw [htaken]
    simp only [Operation.stamp?, Operation.dated?, PostReply.of, Draft.toVersion, hkept, hstored,
      if_true]
    exact (if_neg nofun).symm
  | @stack id r h p d hget hdraft hlast hd hunused =>
    have htaken := taken_of_last hr hget hdraft hlast hok
    cases (hanswers _ rfl).symm.trans hok
    have hnew : t.versions.contains d.version = false :=
      Table.contains_eq_false_iff.mpr ((hr.version?_eq _).symm.trans hunused)
    rw [htaken]
    simp only [Operation.stamp?, Operation.dated?, PostReply.of, Draft.toVersion, hnew,
      Nat.one_ne_zero, if_false, Bool.false_eq_true, Option.some.injEq]
  | publish | drop =>
    simp only [Operation.stamp?, Operation.dated?, Option.some.injEq]

/-- One operation leaves its reading on the posts that it dates. -/
theorem perform_stamped (s : Surroundings) (sanitizer : Sanitizer) (op : Operation) {w : World}
    (hfree : w.store.Free t) (hr : Represents t b) :
    ∃ t' b', (op.perform s sanitizer w).2.store.Free t' ∧ Represents t' b' ∧
      ∀ post, Blog.Stamped post b b' (op.changeTime? s sanitizer post w).toList := by
  unfold Operation.changeTime?
  cases perform_cases s sanitizer op hfree with
  | struck _ hfails hstore =>
    refine ⟨t, b, hstore, hr, fun post => ?_⟩
    rw [Outcome.reply?_of_fails hfails]
    exact .of_eq rfl
  | done _ hanswer hstore _ _ _ =>
    have htables : w.store.tables = t := congrArg Store.tables hfree
    obtain ⟨-, b', -, -, hr'⟩ := effect_stepped hr sanitizer (s.clock w.clockReads)
      (fun n => s.ids (w.idsUsed + n)) op
    refine ⟨_, b', hstore, hr', fun post => ?_⟩
    obtain ⟨b₁, hr₁, hstamped⟩ := effect_stamped hr sanitizer (s.clock w.clockReads)
      (fun n => s.ids (w.idsUsed + n)) op post
    obtain rfl : b₁ = b' := hr₁.blog_eq.symm.trans hr'.blog_eq
    rw [hanswer, htables]
    cases heffect : (op.effect sanitizer (s.clock w.clockReads)
        (fun n => s.ids (w.idsUsed + n)) t).answer with
    | error e =>
      rw [heffect, Operation.stamp?_error] at hstamped
      exact hstamped
    | ok reply =>
      rw [heffect, stamp?_eq_of_ok hr post heffect] at hstamped
      exact hstamped

/-- A run leaves the readings of its operations on the posts that they date. -/
theorem performAll_stamped (s : Surroundings) (sanitizer : Sanitizer) (ops : List Operation)
    {w : World} (hfree : w.store.Free t) (hr : Represents t b) :
    ∃ t' b', (performAll s sanitizer ops w).2.store.Free t' ∧ Represents t' b' ∧
      ∀ post, Blog.Stamped post b b' (changeTimes s sanitizer post ops w) := by
  induction ops generalizing w t b with
  | nil => exact ⟨t, b, hfree, hr, fun post => .of_eq rfl⟩
  | cons op rest ih =>
    obtain ⟨t₁, b₁, hfree₁, hr₁, hfirst⟩ := perform_stamped s sanitizer op hfree hr
    obtain ⟨t', b', hfree', hr', hrest⟩ := ih hfree₁ hr₁
    exact ⟨t', b', hfree', hr', fun post => (hfirst post).trans (hrest post)⟩

end

/-! ## Readings in their order -/

section

variable {s : Surroundings} {sanitizer : Sanitizer} {post : Uuid}

/-- What dates a post reads the clock. -/
theorem clockReads_of_changeTime? {op : Operation} {w : World} {t : Tables} {x : Instant}
    (hfree : w.store.Free t) (h : op.changeTime? s sanitizer post w = some x) :
    x = s.clock w.clockReads ∧ w.clockReads < (op.perform s sanitizer w).2.clockReads := by
  unfold Operation.changeTime? at h
  cases hreply : (op.perform s sanitizer w).1.reply? with
  | none =>
    rw [hreply] at h
    cases h
  | some reply =>
    simp only [hreply, Option.ite_none_right_eq_some, Option.some.injEq] at h
    obtain ⟨hdated, rfl⟩ := h
    refine ⟨rfl, ?_⟩
    have hanswered := Outcome.eq_of_reply? hreply
    cases perform_cases s sanitizer op hfree with
    | struck _ hfails _ => exact absurd hanswered (hfails reply)
    | done _ hanswer _ hclock _ _ =>
      have hok := Outcome.answered.inj (hanswer.symm.trans hanswered)
      have hmutation : op.isMutation = true := by
        cases op with
        | getPost id | getVersion id | getCategory id => cases hdated
        | createPost r | updatePost id r | publishPost id | deleteDraft id | createCategory r
        | updateCategory id r | attach r => rfl
      have hread := Operation.effect_clockReads hmutation hok
      omega

/-- If the readings of a run do not go back, those that date a post are in order. -/
theorem changeTimes_ordered (ops : List Operation) {w : World} {t : Tables} (hfree : w.store.Free t)
    (hclock : s.InOrder (performAll s sanitizer ops w).2.clockReads) :
    (∀ x ∈ changeTimes s sanitizer post ops w, ∃ n, w.clockReads ≤ n ∧
      n < (performAll s sanitizer ops w).2.clockReads ∧ s.clock n = x) ∧
    (changeTimes s sanitizer post ops w).Pairwise (· ≤ ·) := by
  induction ops generalizing w t with
  | nil => exact ⟨List.forall_mem_nil _, .nil⟩
  | cons op rest ih =>
    obtain ⟨t₁, hfree₁⟩ := perform_free s sanitizer op hfree
    obtain ⟨hlater, hordered⟩ := ih hfree₁ hclock
    have hreads := (counters_perform s sanitizer op w).1
    have hrest := (counters_performAll s sanitizer rest (op.perform s sanitizer w).2).1
    have hlater' : ∀ x ∈ changeTimes s sanitizer post rest (op.perform s sanitizer w).2, ∃ n,
        w.clockReads ≤ n ∧ n < (performAll s sanitizer (op :: rest) w).2.clockReads ∧
        s.clock n = x := by
      intro x hx
      obtain ⟨n, hn, hn', rfl⟩ := hlater x hx
      exact ⟨n, Nat.le_trans hreads hn, hn', rfl⟩
    rw [changeTimes]
    cases hfirst : op.changeTime? s sanitizer post w with
    | none => exact ⟨hlater', hordered⟩
    | some x =>
      obtain ⟨rfl, hread⟩ := clockReads_of_changeTime? hfree hfirst
      refine ⟨List.forall_mem_cons.mpr ⟨⟨_, Nat.le_refl _, ?_, rfl⟩, hlater'⟩,
        List.pairwise_cons.mpr ⟨fun y hy => ?_, hordered⟩⟩
      · exact Nat.lt_of_lt_of_le hread hrest
      · obtain ⟨n, hn, hn', rfl⟩ := hlater' y hy
        exact hclock _ n hn hn'

end

/-! ## The first version -/

namespace History

variable {h h' : History} {id : Uuid} {v : Version}

/-- The first of the times of the versions, if there are any, is when the post was made. -/
def Opens (h : History) : Prop :=
  ∀ x, h.moments.head? = some x → x = h.created

theorem Opens.of_head (hopens : h.Opens) (hcreated : h'.created = h.created)
    (hhead : ∀ x, h'.moments.head? = some x → h.moments.head? = some x) : h'.Opens := by
  intro x hx
  rw [hcreated]
  exact hopens x (hhead x hx)

/-- The version with the number one is the first. -/
theorem head?_of_number_one (hv : v ∈ h.versions id) (hnumber : v.number = 1) :
    (h.versions id).head? = some v := by
  obtain ⟨i, hi, rfl⟩ := List.mem_iff_getElem.mp hv
  have hplace : ((h.versions id)[i]).number = (i + 1 : Int) := by
    have hmap := congrArg (·[i]?) (h.map_number id)
    simpa [hi] using hmap
  obtain rfl : i = 0 := by omega
  rw [List.head?_eq_getElem?, List.getElem?_eq_getElem hi]

theorem Opens.created_eq (hopens : h.Opens) (hv : v ∈ h.versions id) (hnumber : v.number = 1) :
    v.created = h.created := by
  apply hopens
  obtain ⟨rest, hrest⟩ := List.head?_eq_some_iff.mp (head?_of_number_one hv hnumber)
  rw [h.moments_eq id, hrest]
  rfl

end History

namespace Blog

variable {sanitizer : Sanitizer} {now : Instant} {fresh : Nat → Uuid} {b b' : Blog}

/-- Every post that has versions has a first one that is as old as the post. -/
def Opened (b : Blog) : Prop :=
  ∀ id h, b.get? id = some h → h.Opens

theorem opened_empty : Opened .empty := by
  intro id h hget
  cases hget

theorem Opened.put {id : Uuid} {h : History} (hb : b.Opened) (hopens : h.Opens) :
    (b.put id h).Opened := by
  intro post h' hget
  rw [get?_put] at hget
  split at hget
  · cases hget
    exact hopens
  · exact hb post h' hget

/-- A step adds versions after the first one, or takes away the last one. -/
theorem Stepped.opened {op : Operation} {answer? : Option (Except Error Reply)}
    (h : Stepped sanitizer now fresh b op answer? b') (hb : b.Opened) : b'.Opened := by
  cases h with
  | spare hspares => exact hb
  | refused => exact hb
  | start hd hgiven hget hunused =>
    apply hb.put
    intro x hx
    subst hd
    exact (Option.some.inj hx).symm
  | amend hget hdraft hd' =>
    apply hb.put
    refine History.Opens.of_head (hb _ _ hget) rfl fun x hx => ?_
    subst hd'
    rw [← hx]
    simp [History.moments, hdraft]
  | @stack id r h p d hget hdraft hlast hd hunused =>
    apply hb.put
    refine History.Opens.of_head (hb _ _ hget) rfl fun x hx => ?_
    obtain ⟨front, hfront⟩ := List.getLast?_eq_some_iff.mp hlast
    rw [← hx]
    cases front <;> simp [History.moments, hdraft, hfront]
  | @publish id h d hget hdraft =>
    apply hb.put
    refine History.Opens.of_head (hb _ _ hget) rfl fun x hx => ?_
    rw [← hx]
    cases hpublications : h.publications <;>
      simp [History.moments, hdraft, hpublications, Draft.publish]
  | @drop id h d hget hdraft =>
    apply hb.put
    refine History.Opens.of_head (hb _ _ hget) rfl fun x hx => ?_
    rw [History.moments_of_draft hdraft]
    obtain ⟨rest, hrest⟩ := List.head?_eq_some_iff.mp hx
    rw [show History.moments { h with draft := none } = x :: rest from hrest]
    rfl

end Blog

theorem performAll_opened (s : Surroundings) (sanitizer : Sanitizer) (ops : List Operation)
    {w : World} {t : Tables} {b : Blog} (hfree : w.store.Free t) (hr : Represents t b)
    (hb : b.Opened) : ∃ t' b', (performAll s sanitizer ops w).2.store.Free t' ∧
      Represents t' b' ∧ b'.Opened := by
  induction ops generalizing w t b with
  | nil => exact ⟨t, b, hfree, hr, hb⟩
  | cons op rest ih =>
    cases perform_cases s sanitizer op hfree with
    | struck _ _ hstore => exact ih hstore hr hb
    | done _ _ hstore _ _ _ =>
      obtain ⟨_, b₁, hstepped, -, hr₁⟩ := effect_stepped hr sanitizer (s.clock w.clockReads)
        (fun n => s.ids (w.idsUsed + n)) op
      exact ih hstore hr₁ (hstepped.opened hb)

/-- **The times of rows.** After any run, whatever faults struck it, the time of a post is the
reading of the clock of the last operation that dated it; an operation that does not succeed, or
that amends a draft, does not change it. If the readings of the run do not go back, then for every
post: its first version is as old as the post, every version was started no earlier than the version
before it was published, and published no earlier than it was started, and none of this is later
than the time of the post. If moreover the identifiers of the run are different, no category was
changed before it was made, and no link was made before its version or its category. -/
theorem times_in_order (s : Surroundings) (sanitizer : Sanitizer) (ops : List Operation)
    (op : Operation) :
    let w := (performAll s sanitizer ops World.initial).2
    let t := w.store.tables
    let ran := op.perform s sanitizer w
    (∀ post, (t.posts.get? post).map (·.updated) =
      (changeTimes s sanitizer post ops World.initial).getLast?) ∧
    (∀ post, (∀ reply, ran.1 = .answered (.ok reply) → op.dated? t reply ≠ some post) →
      (ran.2.store.tables.posts.get? post).map (·.updated) =
        (t.posts.get? post).map (·.updated)) ∧
    (s.InOrder w.clockReads →
      (∀ id p, t.posts.get? id = some p → ∀ v ∈ t.versions.rows, v.post = id →
        (v.number = 1 → v.created = p.created) ∧ v.created ≤ p.updated ∧
        ∀ x, v.published = some x → v.created ≤ x ∧ x ≤ p.updated ∧
          ∀ u ∈ t.versions.rows, u.post = id → u.number = v.number + 1 → x ≤ u.created) ∧
      (s.NeverRepeats w.idsUsed →
        (∀ c ∈ t.categories.rows, c.created ≤ c.updated) ∧
        ∀ l ∈ t.links.rows, ∃ v c, t.versions.get? l.version = some v ∧
          t.categories.get? l.category = some c ∧ v.created ≤ l.created ∧
          c.created ≤ l.created)) := by
  obtain ⟨t, b, hfree, hr, hstamped⟩ := performAll_stamped s sanitizer ops (w := World.initial) rfl
    represents_empty
  obtain ⟨t₁, b₁, hfree₁, hr₁, hopened⟩ := performAll_opened s sanitizer ops (w := World.initial)
    rfl represents_empty Blog.opened_empty
  obtain rfl : t₁ = t := congrArg Store.tables (hfree₁.symm.trans hfree)
  obtain rfl : b₁ = b := hr₁.blog_eq.symm.trans hr.blog_eq
  intro w t' ran
  obtain rfl : t' = t₁ := congrArg Store.tables hfree
  refine ⟨fun post => ?_, fun post hundated => ?_, fun hclock => ⟨fun id p hp v hv hpost => ?_,
    fun hids => ?_⟩⟩
  · exact (hr.updated_eq post).trans (hstamped post).last
  · obtain ⟨t₂, b₂, hfree₂, hr₂, hstep⟩ := perform_stamped s sanitizer op hfree hr
    have htables : ran.2.store.tables = t₂ := congrArg Store.tables hfree₂
    have hnone : op.changeTime? s sanitizer post w = none := by
      unfold Operation.changeTime?
      cases hreply : (op.perform s sanitizer w).1.reply? with
      | none => rfl
      | some reply => exact if_neg (hundated reply (Outcome.eq_of_reply? hreply))
    have hlast := (hstep post).last
    rw [hnone] at hlast
    rw [htables, hr₂.updated_eq, hr.updated_eq, hlast, Option.toList_none, List.append_nil]
  · have hordered : (b₁.timeline id).Pairwise (· ≤ ·) := by
      have htimes := (hstamped id).ordered []
      rw [List.append_nil, List.append_nil] at htimes
      exact htimes (changeTimes_ordered ops (w := World.initial) rfl hclock).2
    have hchronological := hr.chronological hp hordered
    rw [hr.posts] at hp
    obtain ⟨h, hget, rfl⟩ := Option.map_eq_some_iff.mp hp
    have hmem : v ∈ h.versions id := by
      rw [← Blog.versionsOf_of_get? hget, ← hpost]
      exact hr.mem_rows.mp hv
    obtain ⟨-, hversion, hnumber⟩ := hchronological
    refine ⟨fun hone => (hopened id h hget).created_eq hmem hone,
      (hversion v hv hpost _ List.mem_cons_self).2.2, fun x hx => ?_⟩
    have hmoment : x ∈ v.moments := List.mem_cons_of_mem _ (by rw [hx]; exact List.mem_cons_self)
    obtain ⟨-, hstarted, hended⟩ := hversion v hv hpost x hmoment
    refine ⟨hstarted, hended, fun u hu hupost hnext => ?_⟩
    exact hnumber v hv u hu hpost hupost (by omega) x hmoment _ List.mem_cons_self
  · obtain ⟨t₃, hkept⟩ := (World.Kept.initial s).performAll ops hclock hids
    obtain rfl : t₃ = t' := congrArg Store.tables (hkept.free.symm.trans hfree)
    refine ⟨fun c hc => ?_, fun l hl => ?_⟩
    · obtain ⟨id, hget⟩ := Table.mem_rows.mp hc
      exact (hkept.dated.categories id c hget).2
    · obtain ⟨key, hget⟩ := Table.mem_rows.mp hl
      obtain ⟨v, hv⟩ := Table.contains_iff.mp (hkept.wellFormed.linkedVersions key l hget)
      obtain ⟨c, hc⟩ := Table.contains_iff.mp (hkept.wellFormed.linkedCategories key l hget)
      exact ⟨v, c, hv, hc, hkept.dated.linkedVersions key l hget v hv,
        hkept.dated.linkedCategories key l hget c hc⟩

/-- A draft is stacked on a publication and amended, and its version is put into a category that has
been renamed. The post is dated by the draft that was stacked. -/
theorem times_in_order_of_draft :
    let s : Surroundings := .undisturbed ticks .ofNat
    let ops : List Operation := [.createPost ⟨"title", "text"⟩, .publishPost (.ofNat 0),
      .updatePost (.ofNat 0) ⟨none, some "more"⟩, .updatePost (.ofNat 0) ⟨some "other", none⟩,
      .createCategory ⟨"news"⟩, .updateCategory (.ofNat 3) ⟨"sport"⟩,
      .attach ⟨.ofNat 2, [.ofNat 3]⟩]
    (s.InOrder (performAll s .identity ops World.initial).2.clockReads ∧
      s.NeverRepeats (performAll s .identity ops World.initial).2.idsUsed) ∧
    ∃ t, (performAll s .identity ops World.initial).2.store.tables = t ∧
    (t.posts.get? (.ofNat 0)).map (·.updated) = some (ticks 2) ∧
    (∃ v ∈ t.versions.rows, v.number = 1 ∧ v.published = some (ticks 1) ∧
      v.created ≤ ticks 1 ∧ ∀ u ∈ t.versions.rows, u.post = .ofNat 0 → u.number = 2 →
        ticks 1 ≤ u.created) ∧
    ∀ l ∈ t.links.rows, ∃ v c, t.versions.get? l.version = some v ∧
      t.categories.get? l.category = some c ∧ v.created ≤ l.created ∧ c.created ≤ l.created := by
  intro s ops
  let v : Version := { id := .ofNat 1, post := .ofNat 0, number := 1, title := "title"
                       content := "text", published := some (ticks 1), created := ticks 0 }
  have hclock : s.InOrder (performAll s .identity ops World.initial).2.clockReads :=
    fun m n hmn _ => ticks_mono hmn
  have hids : s.NeverRepeats (performAll s .identity ops World.initial).2.idsUsed := by
    intro m n hmn hn heq
    have hused : (performAll s .identity ops World.initial).2.idsUsed = 4 := by decide +kernel
    have hbound : (4 : Nat) < 1 <<< 128 := by decide
    have hvalue : m % 1 <<< 128 = n % 1 <<< 128 := congrArg Uuid.value heq
    rw [Nat.mod_eq_of_lt (by omega), Nat.mod_eq_of_lt (by omega)] at hvalue
    exact absurd hvalue (Nat.ne_of_lt hmn)
  obtain ⟨hupdated, -, hrest⟩ := times_in_order s .identity ops (.getPost (.ofNat 0))
  obtain ⟨hposts, hlinks⟩ := hrest hclock
  have htimes : changeTimes s .identity (.ofNat 0) ops World.initial =
      [ticks 0, ticks 1, ticks 2] := by decide +kernel
  have hlast : ((performAll s .identity ops World.initial).2.store.tables.posts.get?
      (.ofNat 0)).map (·.updated) = some (ticks 2) := by
    rw [hupdated, htimes]
    rfl
  obtain ⟨p, hp, -⟩ := Option.map_eq_some_iff.mp hlast
  have hv : v ∈ (performAll s .identity ops World.initial).2.store.tables.versions.rows := by
    decide +kernel
  obtain ⟨-, -, hpublished⟩ := hposts (.ofNat 0) p hp v hv rfl
  obtain ⟨hstarted, -, hnext⟩ := hpublished (ticks 1) rfl
  exact ⟨⟨hclock, hids⟩, _, rfl, hlast, ⟨v, hv, rfl, rfl, hstarted, hnext⟩, (hlinks hids).2⟩

end Weblog
