import Weblog.Proofs.Blog.Refinement
import Weblog.Proofs.Blog.Step

/-!
# What is published stays

The store would let any version be overwritten or deleted; that a published one never is comes from
what the operations do. The rows of versions are those of a blog whose publications only grow. Links
are removed only with the draft of a post, and no publication shares its identifier with a draft.

* `Tables.Retains`: what is published in some tables, with its links, is so in others.
* `performAll_retains`: it is so in all later tables of a run.
-/

namespace Weblog

/-! ## Effects -/

section

variable {sanitizer : Sanitizer} {now : Instant} {fresh : Nat → Uuid} {t : Tables}

theorem Plan.KeepsLinks.effect {plan : Plan} (h : plan.KeepsLinks) {key : Uuid × Uuid} {l : Link}
    (hget : t.links.get? key = some l) :
    (plan.effect now fresh t).tables.links.get? key = some l := by
  cases plan with
  | refuse e => exact hget
  | look task =>
    have htables : (task.eval now fresh ⟨t, 0, []⟩).2.tables = t :=
      Script.eval_keeps (f := id) (fun a t ha => ha.keeps t) h _
    change (task.eval now fresh ⟨t, 0, []⟩).2.tables.links.get? key = some l
    rw [htables]
    exact hget
  | change body =>
    have hkeeps : ∀ a (t : Tables), a.KeepsLinks → t.links.get? key = some l →
        (t.ask a).2.links.get? key = some l := by
      rintro _ t ⟨c, rfl, hc⟩ hget
      exact hc t key l hget
    have hkept : ((body now).eval now fresh ⟨t, 0, []⟩).2.tables.links.get? key = some l :=
      Script.eval_stays hkeeps (h now) ⟨t, 0, []⟩ hget
    change (Effect.settled t ((body now).eval now fresh ⟨t, 0, []⟩)).tables.links.get? key = some l
    generalize (body now).eval now fresh ⟨t, 0, []⟩ = meant at hkept ⊢
    obtain ⟨result | settled, ws⟩ := meant
    · exact hget
    · exact hkept

variable {b : Blog} (hr : Represents t b)

include hr

/-- The deletion of a draft removes its version with its links, and writes the row of the post. -/
theorem effect_deleteDraft_of_draft {id : Uuid} {h : History} {d : Draft}
    (hget : b.get? id = some h) (hdraft : h.draft = some d) :
    let h' : History := { h with updated := now, draft := none }
    (Operation.deleteDraft id).effect sanitizer now fresh t =
      ⟨.ok .done, (t.withoutVersion d.version).withPost (h'.post id), 1, 0,
        [.draftDeleted id d.version (h.last + 1) ((h.published id).getLast?.map (·.id))]⟩ := by
  intro h'
  unfold Operation.effect
  simp only [Operation.plan, Plan.effect, Task.eval_map, eval_deleteDraftIn hr id hget hdraft]
  rfl

/-- The deletion of a draft removes the links of the draft only. -/
theorem effect_deleteDraft_links (id : Uuid) {key : Uuid × Uuid} {l : Link} {v : Version}
    (hv : t.versions.get? key.1 = some v) (hpublished : v.published.isSome)
    (hget : t.links.get? key = some l) :
    ((Operation.deleteDraft id).effect sanitizer now fresh t).tables.links.get? key = some l := by
  obtain ⟨answer?, b', hstepped, hanswers, -⟩ :=
    effect_stepped hr sanitizer now fresh (.deleteDraft id)
  cases hstepped with
  | spare hspares => cases hspares
  | refused => rw [Operation.effect_tables_of_error (hanswers _ rfl)]; exact hget
  | @drop _ h d hpost hdraft =>
    have hne : key.1 ≠ d.version := by
      intro heq
      have hslot := hr.get?_draft hpost hdraft
      rw [← heq, hv] at hslot
      cases hslot
      cases hpublished
    rw [effect_deleteDraft_of_draft hr hpost hdraft]
    change (t.links.eraseWhere (·.1 = d.version)).get? key = some l
    rw [Table.get?_eraseWhere, decide_eq_false hne]
    exact hget

theorem effect_links (op : Operation) {key : Uuid × Uuid} {l : Link} {v : Version}
    (hv : t.versions.get? key.1 = some v) (hpublished : v.published.isSome)
    (hget : t.links.get? key = some l) :
    (op.effect sanitizer now fresh t).tables.links.get? key = some l := by
  cases op with
  | deleteDraft id => exact effect_deleteDraft_links hr id hv hpublished hget
  | createPost _ | updatePost _ _ | publishPost _ | getPost _ | getVersion _ | createCategory _
  | updateCategory _ _ | getCategory _ | attach _ =>
    exact (Operation.plan_keepsLinks sanitizer trivial).effect hget

end

/-! ## Runs -/

/-- Every published version is still there, the same in everything, and every link of it. -/
structure Tables.Retains (t t' : Tables) : Prop where
  versions : ∀ key v, t.versions.get? key = some v → v.published.isSome →
    t'.versions.get? key = some v
  links : ∀ key v l, t.versions.get? key.1 = some v → v.published.isSome →
    t.links.get? key = some l → t'.links.get? key = some l

theorem Tables.Retains.refl (t : Tables) : t.Retains t where
  versions _ _ hget _ := hget
  links _ _ _ _ _ hget := hget

theorem Tables.Retains.trans {t t' t'' : Tables} (h : t.Retains t') (h' : t'.Retains t'') :
    t.Retains t'' where
  versions key v hv hpublished := h'.versions key v (h.versions key v hv hpublished) hpublished
  links key v l hv hpublished hget :=
    h'.links key v l (h.versions _ v hv hpublished) hpublished (h.links key v l hv hpublished hget)

section

variable (s : Surroundings) (sanitizer : Sanitizer) {w : World} {t : Tables} {b : Blog}

omit s in
theorem effect_retains (op : Operation) (now : Instant) (fresh : Nat → Uuid)
    (hr : Represents t b) : t.Retains (op.effect sanitizer now fresh t).tables := by
  obtain ⟨_, b', hstepped, -, hr'⟩ := effect_stepped hr sanitizer now fresh op
  refine ⟨fun key v hv hpublished => ?_, fun key v l hv hpublished hget => ?_⟩
  · obtain ⟨rfl, hmem⟩ := (hr.versions key v).mp hv
    exact hr'.get?_of_mem (hstepped.extends.mem_versionsOf hmem hpublished)
  · exact effect_links hr op hv hpublished hget

theorem perform_retains (op : Operation) (hfree : w.store.Free t) (hr : Represents t b) :
    ∃ t' b', (op.perform s sanitizer w).2.store.Free t' ∧ Represents t' b' ∧ t.Retains t' := by
  cases perform_cases s sanitizer op hfree with
  | struck _ _ hstore => exact ⟨t, b, hstore, hr, .refl t⟩
  | done _ _ hstore _ _ _ =>
    obtain ⟨_, b', -, -, hr'⟩ := effect_stepped hr sanitizer (s.clock w.clockReads)
      (fun n => s.ids (w.idsUsed + n)) op
    exact ⟨_, b', hstore, hr', effect_retains sanitizer op _ _ hr⟩

theorem performAll_retains (ops : List Operation) (hfree : w.store.Free t) (hr : Represents t b) :
    ∃ t' b', (performAll s sanitizer ops w).2.store.Free t' ∧ Represents t' b' ∧ t.Retains t' := by
  induction ops generalizing w t b with
  | nil => exact ⟨t, b, hfree, hr, .refl t⟩
  | cons op rest ih =>
    obtain ⟨t₁, b₁, hfree₁, hr₁, hretains₁⟩ := perform_retains s sanitizer op hfree hr
    obtain ⟨t', b', hfree', hr', hretains'⟩ := ih hfree₁ hr₁
    exact ⟨t', b', hfree', hr', hretains₁.trans hretains'⟩

/-- A version that is stored is shown, unless a fault strikes the query for it. -/
theorem perform_getVersion {id : Uuid} {v : Version} (hfree : w.store.Free t)
    (hfault : s.faults .version (w.uses .version) = none) (hget : t.versions.get? id = some v) :
    ((Operation.getVersion id).perform s sanitizer w).1 = .answered (.ok (.version v)) := by
  have hstore : w.store.perform (.query (.version id)) = .ok (.ok (some v), w.store) := by
    rw [hfree, ← hget]
    rfl
  have htask : ∃ next, ((Operation.getVersion id).task sanitizer).run =
      .ask (.query (.version id)) next ∧ next (.ok (some v)) = .done (.ok (.version v)) :=
    ⟨_, rfl, rfl⟩
  obtain ⟨next, htask, hnext⟩ := htask
  unfold Operation.perform Script.perform
  rw [htask, Script.run_ask_of_none hfault hstore, hnext]
  rfl

end

/-- **Published history is permanent.** Once a version is published, it is stored under its
identifier, the same in everything, after whatever is done next, with whatever clock, identifiers
and faults; no other version of its post has its number; its links stay as they are; and it is shown
to whoever asks for it, if no fault strikes the question. -/
theorem published_permanent (s s' : Surroundings) (sanitizer sanitizer' : Sanitizer)
    (ops later : List Operation) :
    let w := (performAll s sanitizer ops World.initial).2
    let w' := (performAll s' sanitizer' later w).2
    ∀ key v, w.store.tables.versions.get? key = some v → v.published.isSome →
      v.id = key ∧ w'.store.tables.versions.get? key = some v ∧
      (∀ key' u, w'.store.tables.versions.get? key' = some u → u.post = v.post →
        u.number = v.number → key' = key ∧ u = v) ∧
      (∀ category l, w.store.tables.links.get? (key, category) = some l →
        w'.store.tables.links.get? (key, category) = some l) ∧
      (s'.faults .version (w'.uses .version) = none →
        ((Operation.getVersion key).perform s' sanitizer' w').1 = .answered (.ok (.version v))) := by
  obtain ⟨t, b, hfree, hr⟩ := performAll_represents s sanitizer ops (w := World.initial) rfl
    represents_empty
  intro w w'
  obtain ⟨t', b', hfree', hr', hretains⟩ := performAll_retains s' sanitizer' later hfree hr
  have htables : w.store.tables = t := congrArg Store.tables hfree
  have htables' : w'.store.tables = t' := congrArg Store.tables hfree'
  rw [htables, htables']
  intro key v hv hpublished
  have hv' := hretains.versions key v hv hpublished
  obtain ⟨hid, hmem'⟩ := (hr'.versions key v).mp hv'
  refine ⟨hid, hv', fun key' u hu hpost hnumber => ?_, fun category l hget => ?_, fun hfault => ?_⟩
  · obtain ⟨hid', hmem⟩ := (hr'.versions key' u).mp hu
    have heq : u = v := Blog.eq_of_number (hpost ▸ hmem) hmem' hnumber
    exact ⟨by rw [← hid', ← hid, heq], heq⟩
  · exact hretains.links (key, category) v l hv hpublished hget
  · exact perform_getVersion s' sanitizer' hfree' hfault hv'

/-- A version that is in a category outlives the draft that followed it. -/
theorem published_permanent_of_deletion :
    let s : Surroundings := .serving [] ((List.range 4).map .ofNat)
    let w := (performAll s .identity [.createPost ⟨"title", "text"⟩, .publishPost (.ofNat 0),
      .createCategory ⟨"news"⟩, .attach ⟨.ofNat 1, [.ofNat 2]⟩] World.initial).2
    let w' := (performAll s .identity [.updatePost (.ofNat 0) ⟨none, some "more"⟩,
      .deleteDraft (.ofNat 0)] w).2
    let v : Version := { id := .ofNat 1, post := .ofNat 0, number := 1, title := "title"
                         content := "text", published := some .epoch, created := .epoch }
    let l : Link := ⟨.ofNat 1, .ofNat 2, .epoch⟩
    (w.store.tables.versions.get? v.id = some v ∧ v.published.isSome ∧
      w.store.tables.links.get? (v.id, .ofNat 2) = some l ∧
      s.faults .version (w'.uses .version) = none) ∧
    w'.store.tables.versions.get? v.id = some v ∧
    w'.store.tables.links.get? (v.id, .ofNat 2) = some l ∧
    ((Operation.getVersion v.id).perform s .identity w').1 = .answered (.ok (.version v)) := by
  intro s w w' v l
  have hv : w.store.tables.versions.get? v.id = some v := by decide +kernel
  have hl : w.store.tables.links.get? (v.id, .ofNat 2) = some l := by decide +kernel
  obtain ⟨-, hv', -, hlinks, hshown⟩ :=
    published_permanent s s .identity .identity _ _ v.id v hv rfl
  exact ⟨⟨hv, rfl, hl, rfl⟩, hv', hlinks _ l hl, hshown rfl⟩

end Weblog
