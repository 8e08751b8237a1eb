import Weblog.Proofs.Blog.Edits
import Weblog.Proofs.Blog.Permanence
import Weblog.Proofs.Categorized

/-!
# Drafts that are given up

An edit of a published post starts a draft under a new identifier. Whatever is done with the draft
then writes nothing but the draft, its links and the row of its post (`Drafting`), so the deletion
of the draft brings back all that was there before.

* `Drafting.edit`, `Drafting.attach`: an edit of the post and a request for categories of the draft
  keep it so.
* `deleteDraft_undoes`: after any number of them the deletion leaves the tables of the start, but
  for the time of the last change of the post.
-/

namespace Weblog

/-- Tables are told by what they hold. -/
theorem Tables.ext_get? {t u : Tables} (posts : ∀ k, t.posts.get? k = u.posts.get? k)
    (versions : ∀ k, t.versions.get? k = u.versions.get? k)
    (categories : t.categories = u.categories)
    (links : ∀ k, t.links.get? k = u.links.get? k) : t = u := by
  cases t
  cases u
  obtain rfl := Table.ext_get? posts
  obtain rfl := Table.ext_get? versions
  obtain rfl := Table.ext_get? links
  obtain rfl := categories
  rfl

/-! ## Drafting -/

/-- Since some tables, in which a post had a history without a draft, a draft of the post was
started under an identifier, and nothing was written but the post, the draft and its links. -/
structure Drafting (start : Tables) (b : Blog) (id : Uuid) (h : History) (version : Uuid)
    (t : Tables) : Prop where
  wellFormed : t.WellFormed
  posts : ∀ post, post ≠ id → t.posts.get? post = start.posts.get? post
  versions : ∀ key, key ≠ version → t.versions.get? key = start.versions.get? key
  categories : t.categories = start.categories
  links : ∀ key : Uuid × Uuid, key.1 ≠ version → t.links.get? key = start.links.get? key
  draft : ∃ (d : Draft) (updated : Instant), d.version = version ∧
    Represents t (b.put id { h with updated, draft := some d })

namespace Drafting

variable {start t : Tables} {b : Blog} {id version : Uuid} {h : History} {sanitizer : Sanitizer}
  {now : Instant} {fresh : Nat → Uuid}

/-- An edit of a published post starts a draft. -/
theorem begin {r : UpdatePost} {reply : PostReply} {latest : Version} (hwf : start.WellFormed)
    (hr : Represents start b) (hget : b.get? id = some h)
    (hlatest : latestVersion? start.versions.rows id = some latest)
    (hpublished : latest.published.isSome)
    (hok : ((Operation.updatePost id r).effect sanitizer now fresh start).answer =
      .ok (.post reply)) :
    h.draft = none ∧ start.versions.get? reply.version = none ∧
      Drafting start b id h reply.version
        ((Operation.updatePost id r).effect sanitizer now fresh start).tables := by
  have hwf' := effect_wellFormed sanitizer now fresh (.updatePost id r) hwf
  have hgiven := given_of_accepted hok
  obtain ⟨h', hget', ⟨d, hdraft⟩ | ⟨p, hdraft, hlast, hunused⟩⟩ := of_accepted hr hok
  · -- the latest version would be the draft
    rw [hr.latest_of_draft hget' hdraft] at hlatest
    cases hlatest
    cases hpublished
  · obtain rfl := Option.some.inj (hget.symm.trans hget')
    have hslot : start.versions.get? (fresh 0) = none := (hr.version?_eq _).symm.trans hunused
    rw [effect_update_of_last hr hget hdraft hlast hgiven hunused] at hok hwf' ⊢
    cases hok
    let d := (p.copy (fresh 0) now).edit sanitizer r
    exact ⟨hdraft, hslot,
      { wellFormed := hwf'
        posts := fun post hne => (Table.get?_insert _ _ _ _).trans (if_neg hne)
        versions := fun key hne => (Table.get?_insert _ _ _ _).trans (if_neg hne)
        categories := rfl
        links := fun _ _ => rfl
        draft := ⟨d, now, rfl, hr.startDraft now hget hdraft hunused⟩ }⟩

/-- An edit of the post writes nothing but the draft, whether it succeeds or not. -/
theorem edit (hdrafting : Drafting start b id h version t) (r : UpdatePost) :
    Drafting start b id h version
      ((Operation.updatePost id r).effect sanitizer now fresh t).tables := by
  have hwf' := effect_wellFormed sanitizer now fresh (.updatePost id r) hdrafting.wellFormed
  obtain ⟨d, updated, rfl, hr⟩ := hdrafting.draft
  let h' : History := { h with updated, draft := some d }
  have hget : (b.put id h').get? id = some h' := (b.get?_put id id h').trans (if_pos rfl)
  by_cases hblank : r.Blank sanitizer
  · rw [effect_update_of_blank hblank]
    exact hdrafting
  · let d' := d.edit sanitizer r
    let h'' : History := { h' with draft := some d' }
    have hput : (b.put id h').put id h'' = b.put id h'' := Table.insert_insert b id h' h''
    have hamended : Represents (t.withVersion (d'.toVersion id (h'.last + 1)))
        ((b.put id h').put id h'') := hr.amendDraft hget rfl rfl
    rw [hput] at hamended
    rw [effect_update_of_draft hr hget rfl hblank] at hwf' ⊢
    exact
      { hdrafting with
        wellFormed := hwf'
        versions := fun key hne => (Table.get?_insert _ _ _ _).trans
          ((if_neg hne).trans (hdrafting.versions key hne))
        draft := ⟨d', updated, rfl, hamended⟩ }

/-- A request for categories of the draft writes nothing but links of the draft, whether it succeeds
or not. -/
theorem attach (hdrafting : Drafting start b id h version t) {r : AttachCategories}
    (hversion : r.version = version) :
    Drafting start b id h version
      ((Operation.attach r).effect sanitizer now fresh t).tables := by
  have hwf' := effect_wellFormed sanitizer now fresh (.attach r) hdrafting.wellFormed
  cases hanswer : ((Operation.attach r).effect sanitizer now fresh t).answer with
  | error e =>
    rw [Operation.effect_tables_of_error hanswer]
    exact hdrafting
  | ok reply =>
    have htransition := effect_transition hdrafting.wellFormed hanswer
    generalize ((Operation.attach r).effect sanitizer now fresh t).tables = t'
      at hwf' htransition ⊢
    generalize ((Operation.attach r).effect sanitizer now fresh t).events = events at htransition
    cases htransition with
    | look hlooks => cases hlooks
    | attach hvalid hstored hattach =>
      have hlinks : ∀ l ∈ r.links now, l.version = version := fun l hl =>
        (r.version_of_mem_links hl).trans hversion
      obtain ⟨hposts, hversions⟩ := t.attach_spares (r.links now)
      obtain ⟨hcategories, hothers⟩ := t.attach_frame hlinks
      rw [hattach] at hposts hversions hcategories hothers
      obtain ⟨d, updated, hd, hr⟩ := hdrafting.draft
      exact
        { wellFormed := hwf'
          posts := fun post hne => hposts ▸ hdrafting.posts post hne
          versions := fun key hne => hversions ▸ hdrafting.versions key hne
          categories := hcategories.trans hdrafting.categories
          links := fun key hne => (hothers key hne).trans (hdrafting.links key hne)
          draft := ⟨d, updated, hd, hr.congr hposts hversions⟩ }

/-- The deletion of the draft brings back what there was before it. -/
theorem deleteDraft (hdrafting : Drafting start b id h version t) (hwf : start.WellFormed)
    (hr : Represents start b) (hget : b.get? id = some h) (hdraft : h.draft = none)
    (hunused : start.versions.get? version = none) {post : Post}
    (hpost : start.posts.get? id = some post) :
    ((Operation.deleteDraft id).effect sanitizer now fresh t).answer = .ok .done ∧
      ((Operation.deleteDraft id).effect sanitizer now fresh t).tables =
        start.withPost { post with updated := now } := by
  obtain ⟨d, updated, rfl, hr'⟩ := hdrafting.draft
  let h' : History := { h with updated, draft := some d }
  have hget' : (b.put id h').get? id = some h' := (b.get?_put id id h').trans (if_pos rfl)
  let h'' : History := { h' with updated := now, draft := none }
  have hid : post.id = id := hwf.posts id post hpost
  have hrow : h''.post id = { post with updated := now } := by
    rw [hr.posts, hget] at hpost
    cases hpost
    simp only [h'', h', History.post, History.shown?, History.draftVersion?,
      History.lastPublished?, History.last, hdraft]
  have htables : (t.withoutVersion d.version).withPost (h''.post id) =
      start.withPost { post with updated := now } := by
    rw [hrow]
    refine Tables.ext_get? (fun key => ?_) (fun key => ?_) hdrafting.categories (fun key => ?_)
    · refine (Table.get?_insert _ _ _ _).trans (Eq.trans ?_ (Table.get?_insert _ _ _ _).symm)
      by_cases hkey : key = post.id
      · rw [if_pos hkey, if_pos hkey]
      · rw [if_neg hkey, if_neg hkey]
        exact hdrafting.posts key (hid ▸ hkey)
    · refine (Table.get?_erase _ _ _).trans ?_
      by_cases hkey : key = d.version
      · rw [if_pos hkey, hkey]
        exact hunused.symm
      · rw [if_neg hkey]
        exact hdrafting.versions key hkey
    · refine (Table.get?_eraseWhere _ _ _).trans ?_
      by_cases hkey : key.1 = d.version
      · rw [if_pos (decide_eq_true hkey)]
        exact (hwf.get?_links_of_unused hunused hkey).symm
      · rw [if_neg (by simpa using hkey)]
        exact hdrafting.links key hkey
  rw [effect_deleteDraft_of_draft hr' hget' rfl]
  exact ⟨rfl, htables⟩

end Drafting

/-! ## Runs -/

/-- **Giving a draft up.** Whatever was done before, with whatever surroundings: when an edit of a
post whose latest version is published is accepted, the identifier of its draft is new. After any
edits of the post and requests for categories of the draft, whatever faults strike them, a deletion
that no fault strikes succeeds, and the tables are what they were before the first edit, but for the
time of the last change of the post, which is that of the deletion. -/
theorem deleteDraft_undoes (s s' : Surroundings) (sanitizer sanitizer' : Sanitizer)
    (ops : List Operation) (id : Uuid) (r : UpdatePost) (session : List Operation) :
    let w := (performAll s' sanitizer' ops World.initial).2
    let t := w.store.tables
    let started := (Operation.updatePost id r).perform s sanitizer w
    let w' := (performAll s sanitizer session started.2).2
    let deleted := (Operation.deleteDraft id).perform s sanitizer w'
    ∀ post latest reply, t.posts.get? id = some post →
      latestVersion? t.versions.rows id = some latest → latest.published.isSome →
      started.1 = .answered (.ok (.post reply)) →
      (∀ op ∈ session, (∃ r, op = .updatePost id r) ∨
        ∃ r, op = .attach r ∧ r.version = reply.version) →
      s.Calm w'.trace deleted.2.trace →
      t.versions.get? reply.version = none ∧ deleted.1 = .answered (.ok .done) ∧
        deleted.2.store.Free { t with
          posts := t.posts.insert id { post with updated := s.clock w'.clockReads } } := by
  obtain ⟨start, b, hfree, hr⟩ := performAll_represents s' sanitizer' ops (w := World.initial) rfl
    represents_empty
  obtain ⟨start', hfree', hwf⟩ := performAll_wellFormed s' sanitizer' ops (w := World.initial) rfl
    .empty
  obtain rfl : start = start' := congrArg Store.tables (hfree.symm.trans hfree')
  intro w t started w' deleted post latest reply hpost hlatest hpublished hstarted hsession hcalm
  obtain rfl : t = start := congrArg Store.tables hfree
  obtain ⟨h, hget⟩ : ∃ h, b.get? id = some h := by
    rw [hr.posts] at hpost
    obtain ⟨h, hget, -⟩ := Option.map_eq_some_iff.mp hpost
    exact ⟨h, hget⟩
  cases perform_cases s sanitizer (.updatePost id r) hfree with
  | struck _ hfails _ => exact absurd hstarted (hfails _)
  | done _ hanswer hstore _ _ _ =>
    have hok := Outcome.answered.inj (hanswer.symm.trans hstarted)
    obtain ⟨hdraft, hunused, hdrafting⟩ := Drafting.begin hwf hr hget hlatest hpublished hok
    have hkept : ∀ op ∈ session, ∀ now fresh u, Drafting t b id h reply.version u →
        Drafting t b id h reply.version (op.effect sanitizer now fresh u).tables := by
      intro op hop now fresh u hdrafting
      obtain ⟨r, rfl⟩ | ⟨r, rfl, hversion⟩ := hsession op hop
      · exact hdrafting.edit r
      · exact hdrafting.attach hversion
    obtain ⟨t₁, hfree₁, hdrafting₁⟩ := performAll_stays s hkept hstore hdrafting
    cases perform_cases s sanitizer (.deleteDraft id) hfree₁ with
    | struck hstruck _ _ => exact absurd hcalm hstruck
    | done _ hdone hstore₁ _ _ _ =>
      obtain ⟨hsaid, htables⟩ := hdrafting₁.deleteDraft hwf hr hget hdraft hunused hpost
      have hid : post.id = id := hwf.posts id post hpost
      refine ⟨hunused, hdone.trans (congrArg _ hsaid), hstore₁.trans ?_⟩
      rw [htables, Tables.withPost, hid]

/-- A draft is edited, put into a category and given up; the version before it keeps its link. -/
theorem deleteDraft_undoes_session :
    let s : Surroundings := .serving [] ((List.range 4).map .ofNat)
    let w := (performAll s .identity [.createPost ⟨"title", "text"⟩, .publishPost (.ofNat 0),
      .createCategory ⟨"news"⟩, .attach ⟨.ofNat 1, [.ofNat 2]⟩] World.initial).2
    let t := w.store.tables
    let started := (Operation.updatePost (.ofNat 0) ⟨none, some "more"⟩).perform s .identity w
    let session : List Operation := [.updatePost (.ofNat 0) ⟨some "other title", none⟩,
      .attach ⟨.ofNat 3, [.ofNat 2]⟩, .attach ⟨.ofNat 3, [.ofNat 9]⟩,
      .updatePost (.ofNat 0) ⟨some "", none⟩]
    let w' := (performAll s .identity session started.2).2
    let deleted := (Operation.deleteDraft (.ofNat 0)).perform s .identity w'
    let post : Post :=
      { id := .ofNat 0, current := some (.ofNat 1), created := .epoch, updated := .epoch }
    let latest : Version := { id := .ofNat 1, post := .ofNat 0, number := 1, title := "title"
                              content := "text", published := some .epoch, created := .epoch }
    let reply : PostReply := { post := .ofNat 0, version := .ofNat 3, number := 2, title := "title"
                               content := "more" }
    (t.posts.get? (.ofNat 0) = some post ∧
      latestVersion? t.versions.rows (.ofNat 0) = some latest ∧ latest.published.isSome ∧
      started.1 = .answered (.ok (.post reply)) ∧ s.Calm w'.trace deleted.2.trace ∧
      w'.store.tables.links.contains (.ofNat 3, .ofNat 2)) ∧
    deleted.1 = .answered (.ok .done) ∧ deleted.2.store.Free { t with
      posts := t.posts.insert (.ofNat 0) { post with updated := s.clock w'.clockReads } } := by
  intro s w t started session w' deleted post latest reply
  have hpost : t.posts.get? (.ofNat 0) = some post := by decide +kernel
  have hlatest : latestVersion? t.versions.rows (.ofNat 0) = some latest := by decide +kernel
  have hstarted : started.1 = .answered (.ok (.post reply)) :=
    Outcome.eq_of_reply? (by decide +kernel)
  have hlinked : w'.store.tables.links.contains (.ofNat 3, .ofNat 2) = true := by decide +kernel
  have hcalm : s.Calm w'.trace deleted.2.trace := Surroundings.calm_of_no_faults fun _ _ => rfl
  have hsession : ∀ op ∈ session, (∃ r, op = .updatePost (.ofNat 0) r) ∨
      ∃ r, op = .attach r ∧ r.version = reply.version := by
    simp only [session, List.forall_mem_cons]
    exact ⟨.inl ⟨_, rfl⟩, .inr ⟨_, rfl, rfl⟩, .inr ⟨_, rfl, rfl⟩, .inl ⟨_, rfl⟩, by simp⟩
  obtain ⟨-, hdone, hundone⟩ := deleteDraft_undoes s s .identity .identity _ (.ofNat 0) _ session
    post latest reply hpost hlatest rfl hstarted hsession hcalm
  exact ⟨⟨hpost, hlatest, rfl, hstarted, hcalm, hlinked⟩, hdone, hundone⟩

end Weblog
