import Weblog.Proofs.Constraints
import Weblog.Proofs.Store.Snapshot

/-!
# Well-formed tables

The constraints that the store keeps for callers of any kind (`Tables.WellFormed`): rows are stored
under their own keys, versions refer to posts and links to versions and categories, and neither the
numbers of the versions of one post nor the names of categories repeat.

* `WellFormed.call` (no assumption on the call): one call keeps them, whatever rows it is made with
  and whether it fails or not.
* `Snapshot.WellFormed.act`: hence everything that can be done with a store does. The undo record
  needs no argument of its own, because ending a transaction brings back tables that were copied.
* `store_well_formed`: they hold after every session, of the tables as they are written and of those
  that are committed.
-/

namespace Weblog

/-! ## The constraints -/

/-- The version and the category that a link joins. -/
def Link.pair (l : Link) : Uuid × Uuid :=
  (l.version, l.category)

/-- The number of a version with the post that it counts for. -/
def Version.place (v : Version) : Uuid × Int :=
  (v.post, v.number)

namespace Tables

/-- What holds of the rows of the four tables, for themselves and together. -/
structure WellFormed (t : Tables) : Prop where
  posts : t.posts.KeyedBy Post.id
  versions : t.versions.KeyedBy Version.id
  categories : t.categories.KeyedBy Category.id
  links : t.links.KeyedBy Link.pair
  /-- The post of every version is there. -/
  owners : t.versions.Refers Version.post t.posts
  /-- No two versions of a post have the same number. -/
  places : t.versions.Distinct Version.place
  /-- No two categories have the same name. -/
  names : t.categories.Distinct Category.name
  linkedVersions : t.links.Refers Link.version t.versions
  linkedCategories : t.links.Refers Link.category t.categories

namespace WellFormed

theorem empty : Tables.empty.WellFormed where
  posts := by intro k row hget; cases hget
  versions := by intro k row hget; cases hget
  categories := by intro k row hget; cases hget
  links := by intro k row hget; cases hget
  owners := by intro k row hget; cases hget
  places := List.nodup_nil
  names := List.nodup_nil
  linkedVersions := by intro k row hget; cases hget
  linkedCategories := by intro k row hget; cases hget

variable {t : Tables} (h : t.WellFormed)

include h

/-- There is at most one link of a version and a category. -/
theorem pairs : t.links.Distinct Link.pair :=
  h.links.distinct

/-! ## Rows that are written and removed -/

theorem withPost (p : Post) : (t.withPost p).WellFormed :=
  { h with
    posts := h.posts.insert p
    owners := h.owners.insert_target p.id p }

theorem withVersion {v : Version} (howner : t.posts.contains v.post = true)
    (hplace : ∀ k w, t.versions.get? k = some w → w.place = v.place → k = v.id) :
    (t.withVersion v).WellFormed :=
  { h with
    versions := h.versions.insert v
    owners := h.owners.insert howner
    places := h.places.insert hplace
    linkedVersions := h.linkedVersions.insert_target v.id v }

theorem withCategory {c : Category}
    (hname : ∀ k d, t.categories.get? k = some d → d.name = c.name → k = c.id) :
    (t.withCategory c).WellFormed :=
  { h with
    categories := h.categories.insert c
    names := h.names.insert hname
    linkedCategories := h.linkedCategories.insert_target c.id c }

theorem withLink {l : Link} (hversion : t.versions.contains l.version = true)
    (hcategory : t.categories.contains l.category = true) : (t.withLink l).WellFormed :=
  { h with
    links := h.links.insert l
    linkedVersions := h.linkedVersions.insert hversion
    linkedCategories := h.linkedCategories.insert hcategory }

theorem withoutVersion (id : Uuid) : (t.withoutVersion id).WellFormed := by
  have hlinks : ∀ k l, t.links.get? k = some l → l.version = id → decide (k.1 = id) = true := by
    intro k l hget hversion
    have hkey : l.pair = k := h.links k l hget
    exact decide_eq_true (hkey ▸ hversion)
  exact { h with
    versions := h.versions.erase id
    links := h.links.eraseWhere _
    owners := h.owners.erase id
    places := h.places.erase id
    linkedVersions := h.linkedVersions.erase_both id hlinks
    linkedCategories := h.linkedCategories.eraseWhere _ }

/-! ## Calls -/

theorem attach (links : List Link) : (t.attach links).2.WellFormed := by
  induction links generalizing t with
  | nil => exact h
  | cons l rest ih =>
    rw [Tables.attach]
    split
    · exact h
    · rename_i hversion
      split
      · exact h
      · rename_i hcategory
        split
        · exact ih h
        · exact ih (h.withLink (by simpa using hversion) (by simpa using hcategory))

/-- A name that no other category has may be given to a category. -/
theorem ofFreeName {c : Category} (hfree : isNameTaken t.categories.rows c.name c.id = false) :
    (t.withCategory c).WellFormed := by
  apply h.withCategory
  intro k d hget hname
  have hkey : d.id = k := h.categories k d hget
  have hother := List.any_eq_false.mp hfree d (Table.mem_rows.mpr ⟨k, hget⟩)
  simpa [hname, hkey] using hother

/-- A call keeps tables well-formed, whatever it is made with and whether it fails or not. -/
theorem call (c : Call) : (t.call c).2.WellFormed := by
  cases c with
  | createPost p =>
    simp only [Tables.call]
    split
    · exact h
    · exact h.withPost p
  | updatePost p =>
    simp only [Tables.call]
    cases t.posts.get? p.id with
    | none => exact h
    | some stored => exact h.withPost _
  | createVersion v =>
    simp only [Tables.call]
    split
    · exact h
    · rename_i howner
      split
      · exact h
      · rename_i hnew
        have hplace : ∀ k w, t.versions.get? k = some w → w.place = v.place → k = v.id := by
          intro k w hget hplace
          have hany : (t.versions.rows.any fun w => w.post = v.post ∧ w.number = v.number) = true :=
            List.any_eq_true.mpr
              ⟨w, Table.mem_rows.mpr ⟨k, hget⟩, decide_eq_true (Prod.mk.inj hplace)⟩
          exact absurd (.inl hany) hnew
        exact h.withVersion (by simpa using howner) hplace
  | updateVersion v =>
    simp only [Tables.call]
    cases hstored : t.versions.get? v.id with
    | none => exact h
    | some stored =>
      -- neither the post nor the number of a version can be written anew
      have hid : stored.id = v.id := h.versions v.id stored hstored
      have howner : t.posts.contains stored.post = true := h.owners v.id stored hstored
      have hplace : ∀ k w, t.versions.get? k = some w → w.place = stored.place → k = stored.id := by
        intro k w hget hsame
        exact (Table.distinct_iff.mp h.places k v.id w stored hget hstored hsame).trans hid.symm
      exact h.withVersion howner hplace
  | deleteVersion id =>
    simp only [Tables.call]
    split
    · exact h.withoutVersion id
    · exact h
  | createCategory c =>
    simp only [Tables.call]
    split
    · exact h
    · rename_i hfree
      exact h.ofFreeName (Bool.eq_false_iff.mpr hfree)
  | updateCategory c =>
    simp only [Tables.call]
    split
    · exact h
    · rename_i hfree
      cases hstored : t.categories.get? c.id with
      | none => exact h
      | some stored =>
        have hid : stored.id = c.id := h.categories c.id stored hstored
        apply h.ofFreeName
        simp only [hid]
        exact Bool.eq_false_iff.mpr hfree
  | attach links => exact h.attach links
  | lockPost _ | lockLatestVersion _ | lockVersion _ | lockCategory _ | findCategoryByName _
  | findCategories _ => exact h

end WellFormed

end Tables

/-! ## Sessions -/

variable {α : Type}

/-- The committed tables are well-formed, and so is the copy that is worked on. -/
structure Snapshot.WellFormed (s : Snapshot) : Prop where
  committed : s.committed.WellFormed
  copy : ∀ t, s.copy = some t → t.WellFormed

namespace Snapshot.WellFormed

theorem idle {t : Tables} (h : t.WellFormed) : (Snapshot.mk t none).WellFormed :=
  ⟨h, by intro t' hcopy; cases hcopy⟩

theorem working {t t' : Tables} (h : t.WellFormed) (h' : t'.WellFormed) :
    (Snapshot.mk t (some t')).WellFormed := by
  refine ⟨h, ?_⟩
  intro t'' hcopy
  cases hcopy
  exact h'

/-- Whatever is done with a store keeps it well-formed. -/
theorem act {s : Snapshot} (h : s.WellFormed) (x : Action α) : (s.act x).2.WellFormed := by
  obtain ⟨t, _ | t'⟩ := s
  · cases x with
    | access a =>
      cases a with
      | begin => exact working h.committed h.committed
      | commit | rollback | call c | query q => exact h
    | read r => exact h
    | drop => exact h
    | finish result => cases result <;> exact h
  · have h' : t'.WellFormed := h.copy t' rfl
    cases x with
    | access a =>
      cases a with
      | begin => exact h
      | commit => exact idle h'
      | rollback => exact idle h.committed
      | call c => exact working h.committed (h'.call c)
      | query q => exact h
    | read r => exact h
    | drop => exact idle h.committed
    | finish result =>
      cases result with
      | ok a => exact idle h'
      | error e => exact idle h.committed

theorem session {s : Snapshot} (h : s.WellFormed) (actions : List (Action α)) :
    (s.session actions).2.WellFormed := by
  induction actions generalizing s with
  | nil => exact h
  | cons x rest ih => exact ih (h.act x)

end Snapshot.WellFormed

theorem Store.tables_eq_of_copy (s : Store) :
    s.tables = (s.snapshot.copy).getD s.snapshot.committed := by
  obtain ⟨t, _ | record⟩ := s <;> rfl

/-- **The constraints of the store.** Whatever is done with a store that was empty, in whatever
order and with whatever rows, also when calls fail and while a transaction is open: the tables are
well-formed, as they are written and as they are committed, and no two links join the same version
and category. -/
theorem store_well_formed (actions : List (Action α)) :
    let s := (Store.empty.session actions).2
    (s.tables.WellFormed ∧ s.tables.links.Distinct Link.pair) ∧
      (s.committed.WellFormed ∧ s.committed.links.Distinct Link.pair) := by
  intro s
  have hsnapshot : (Store.empty.snapshot.session actions).2 = s.snapshot :=
    congrArg Prod.snd (Store.snapshot_session Store.empty actions)
  have hwell : s.snapshot.WellFormed :=
    hsnapshot ▸ (Snapshot.WellFormed.idle Tables.WellFormed.empty).session actions
  have htables : s.tables.WellFormed := by
    rw [s.tables_eq_of_copy]
    cases hcopy : s.snapshot.copy with
    | none => exact hwell.committed
    | some t => exact hwell.copy t hcopy
  exact ⟨⟨htables, htables.pairs⟩, hwell.committed, hwell.committed.pairs⟩

end Weblog
