import Mathlib.Data.List.Basic
import Weblog.Proofs.Transition

/-!
# The categories of a version

A version is in the categories that its links lead to. So its categories are the same as long as
these links and the rows of these categories are (`Tables.WellFormed.categoriesOf_congr`), and only
a few operations can change them: those that put the version into categories, delete the draft of
its post or write one of its categories (`Transition.categoriesOf`).
-/

namespace Weblog

/-! ## Links of one version -/

/-- Links are added to their own versions only, and nothing else is written with them. -/
theorem Tables.attach_frame (t : Tables) {links : List Link} {version : Uuid}
    (hlinks : ∀ l ∈ links, l.version = version) :
    (t.attach links).2.categories = t.categories ∧
      ∀ key : Uuid × Uuid, key.1 ≠ version →
        (t.attach links).2.links.get? key = t.links.get? key := by
  refine ⟨by rw [attach_writes], fun key hkey => ?_⟩
  induction links generalizing t with
  | nil => rfl
  | cons l rest ih =>
    obtain ⟨hfirst, hrest⟩ := List.forall_mem_cons.mp hlinks
    rw [attach]
    split
    · rfl
    · split
      · rfl
      · split
        · exact ih t hrest
        · have hne : key ≠ (l.version, l.category) := by
            rintro rfl
            exact hkey hfirst
          exact (ih (t.withLink l) hrest).trans ((Table.get?_insert _ _ _ _).trans (if_neg hne))

theorem AttachCategories.version_of_mem_links {r : AttachCategories} {now : Instant} {l : Link}
    (hl : l ∈ r.links now) : l.version = r.version := by
  obtain ⟨category, -, rfl⟩ := List.mem_map.mp hl
  rfl

namespace Tables.WellFormed

variable {t t' : Tables} {version category : Uuid} (hwf : t.WellFormed)

include hwf

/-- The links of a version are those under keys with the version. -/
theorem linksOf_eq (version : Uuid) :
    t.linksOf version = (t.links.eraseWhere fun key => decide (key.1 ≠ version)).rows := by
  have hsame : ∀ e ∈ t.links.entries,
      decide (e.2.version = version) = !decide (e.1.1 ≠ version) := by
    intro e he
    have hpair : e.2.pair = e.1 := hwf.links e.1 e.2 (Table.get?_eq_some_iff.mpr he)
    rw [← hpair, decide_not, Bool.not_not]
    rfl
  unfold Tables.linksOf Table.rows Table.eraseWhere
  rw [List.filter_map]
  exact congrArg (List.map Prod.snd) (List.filter_congr hsame)

theorem contains_of_mem_linksOf {l : Link} (hl : l ∈ t.linksOf version) :
    t.links.contains (version, l.category) = true := by
  obtain ⟨hmem, hversion⟩ := List.mem_filter.mp hl
  obtain ⟨key, hget⟩ := Table.mem_rows.mp hmem
  have hpair : l.pair = key := hwf.links key l hget
  have hkey : l.pair = (version, l.category) :=
    congrArg (·, l.category) (of_decide_eq_true hversion)
  exact Table.contains_iff.mpr ⟨l, hkey ▸ hpair ▸ hget⟩

/-- A version is in every category that a link of it leads to. -/
theorem mem_categoriesOf (h : t.links.contains (version, category) = true) :
    category ∈ (t.categoriesOf version).map (·.id) := by
  obtain ⟨l, hget⟩ := Table.contains_iff.mp h
  have hpair : l.pair = (version, category) := hwf.links _ l hget
  have hversion : l.version = version := congrArg Prod.fst hpair
  have hcategory : l.category = category := congrArg Prod.snd hpair
  have hmem : l ∈ t.linksOf version :=
    List.mem_filter.mpr ⟨Table.mem_rows.mpr ⟨_, hget⟩, decide_eq_true hversion⟩
  obtain ⟨c, hc⟩ := Table.contains_iff.mp (hwf.linkedCategories _ l hget)
  have hid : c.id = category := (hwf.categories _ c hc).trans hcategory
  refine List.mem_map.mpr ⟨c, ?_, hid⟩
  exact (List.mergeSort_perm _ _).mem_iff.mpr (List.mem_filterMap.mpr ⟨l, hmem, hc⟩)

/-- A version that is not stored has no links. -/
theorem get?_links_of_unused (hunused : t.versions.get? version = none) {key : Uuid × Uuid}
    (hkey : key.1 = version) : t.links.get? key = none := by
  cases hget : t.links.get? key with
  | none => rfl
  | some l =>
    have hpair : l.pair = key := hwf.links key l hget
    have hversion : l.version = version := (congrArg Prod.fst hpair).trans hkey
    obtain ⟨v, hv⟩ := Table.contains_iff.mp (hwf.linkedVersions key l hget)
    rw [hversion, hunused] at hv
    cases hv

/-- The categories of a version depend on nothing but its links and the rows that these lead to. -/
theorem categoriesOf_congr (hwf' : t'.WellFormed)
    (hlinks : ∀ c, t'.links.get? (version, c) = t.links.get? (version, c))
    (hcategories : ∀ c, t.links.contains (version, c) = true →
      t'.categories.get? c = t.categories.get? c) :
    t'.categoriesOf version = t.categoriesOf version := by
  have hsame : t'.linksOf version = t.linksOf version := by
    rw [hwf'.linksOf_eq, hwf.linksOf_eq]
    refine congrArg Table.rows (Table.ext_get? fun key => ?_)
    rw [Table.get?_eraseWhere, Table.get?_eraseWhere]
    obtain ⟨v, c⟩ := key
    by_cases hv : v = version
    · rw [hv, hlinks]
    · rw [if_pos (decide_eq_true hv), if_pos (decide_eq_true hv)]
  unfold categoriesOf
  rw [hsame]
  refine congrArg sortByName (List.filterMap_congr fun l hl => ?_)
  exact hcategories l.category (hwf.contains_of_mem_linksOf hl)

/-- A version that is removed has no links left. -/
theorem categoriesOf_withoutVersion_self (version : Uuid) :
    (t.withoutVersion version).categoriesOf version = [] := by
  have hwf' := hwf.withoutVersion version
  have hnone : (t.withoutVersion version).linksOf version = [] := by
    apply List.eq_nil_iff_forall_not_mem.mpr
    intro l hl
    obtain ⟨l', hget⟩ := Table.contains_iff.mp (hwf'.contains_of_mem_linksOf hl)
    cases (Table.get?_of_eraseWhere hget).1.symm.trans (decide_eq_true rfl)
  unfold categoriesOf
  rw [hnone]
  exact List.mergeSort_nil

/-- The categories of a version stay when other versions are removed. -/
theorem categoriesOf_withoutVersion {id : Uuid} (hne : version ≠ id) :
    (t.withoutVersion id).categoriesOf version = t.categoriesOf version := by
  refine hwf.categoriesOf_congr (hwf.withoutVersion id) (fun c => ?_) fun _ _ => rfl
  exact (Table.get?_eraseWhere _ _ _).trans (if_neg (by simpa using hne))

/-- They stay when a category is written that the version is not in. -/
theorem categoriesOf_withCategory {c : Category} (hwf' : (t.withCategory c).WellFormed)
    (hc : c.id ∉ (t.categoriesOf version).map (·.id)) :
    (t.withCategory c).categoriesOf version = t.categoriesOf version := by
  refine hwf.categoriesOf_congr hwf' (fun _ => rfl) fun c' hlinked => ?_
  have hne : c' ≠ c.id := by
    rintro rfl
    exact hc (hwf.mem_categoriesOf hlinked)
  exact (Table.get?_insert _ _ _ _).trans (if_neg hne)

/-- They stay when other versions are put into categories. -/
theorem categoriesOf_attach {r : AttachCategories} (now : Instant) (hne : version ≠ r.version) :
    (t.attach (r.links now)).2.categoriesOf version = t.categoriesOf version := by
  obtain ⟨hcategories, hlinks⟩ :=
    t.attach_frame fun l (hl : l ∈ r.links now) => r.version_of_mem_links hl
  refine hwf.categoriesOf_congr (hwf.attach _) (fun c => hlinks (version, c) hne) fun c _ => ?_
  rw [hcategories]

end Tables.WellFormed

/-! ## What changes them -/

/-- Whether an operation that succeeds with this reply can change the categories of a version of a
post, when it is in the given ones. A new category replaces the one whose identifier it is given. -/
def Operation.Recategorizes (post version : Uuid) (categories : List Uuid) :
    Operation → Reply → Prop
  | .attach r, _ => r.version = version
  | .deleteDraft id, _ => id = post
  | .updateCategory id _, _ => id ∈ categories
  | .createCategory _, .category c => c.id ∈ categories
  | _, _ => False

/-- A version is one of a post, or in no category. -/
def Tables.Places (t : Tables) (version post : Uuid) : Prop :=
  (∃ v, t.versions.get? version = some v ∧ v.post = post) ∨ t.categoriesOf version = []

namespace Transition

variable {sanitizer : Sanitizer} {now : Instant} {fresh : Nat → Uuid} {t t' : Tables}
  {op : Operation} {reply : Reply} {events : List Event} {post version : Uuid}

/-- Only what is about the categories of a version changes them. -/
theorem categoriesOf (h : Transition sanitizer now fresh t op reply t' events)
    (hwf : t.WellFormed) (hwf' : t'.WellFormed) (hplaced : t.Places version post) :
    t'.categoriesOf version = t.categoriesOf version ∨
      op.Recategorizes post version ((t.categoriesOf version).map (·.id)) reply := by
  cases h with
  | look _ | start _ _ _ _ _ | amend _ _ _ | stack _ _ _ _ _ | publish _ _ _ _ => exact .inl rfl
  | @drop id _ latest _ _ hlatest _ _ =>
    by_cases hid : version = latest.id
    · subst hid
      rcases hplaced with ⟨v, hv, hpost⟩ | hnone
      · cases hv.symm.trans (hwf.get?_latest hlatest)
        have hof : latest.post = id := (mem_of_latestVersion? hlatest).2
        exact .inr (hof.symm.trans hpost)
      · exact .inl ((hwf.categoriesOf_withoutVersion_self latest.id).trans hnone.symm)
    · exact .inl (hwf.categoriesOf_withoutVersion hid)
  | @createCategory _ c =>
    by_cases hc : c.id ∈ (t.categoriesOf version).map (·.id)
    · exact .inr hc
    · exact .inl (hwf.categoriesOf_withCategory hwf' hc)
  | @rename id _ before c _ hid hc =>
    have hcid : c.id = id := by rw [hc]; exact hid
    by_cases hmem : id ∈ (t.categoriesOf version).map (·.id)
    · exact .inr hmem
    · exact .inl (hwf.categoriesOf_withCategory hwf' (hcid ▸ hmem))
  | @attach r _ _ _ _ hattach =>
    by_cases hversion : version = r.version
    · exact .inr hversion.symm
    · have hsame := hwf.categoriesOf_attach now hversion
      rw [hattach] at hsame
      exact .inl hsame

/-- A version stays one of its post as long as its categories do not change. -/
theorem places (h : Transition sanitizer now fresh t op reply t' events) (hwf : t.WellFormed)
    (hplaced : t.Places version post)
    (hsame : t'.categoriesOf version = t.categoriesOf version) : t'.Places version post := by
  obtain ⟨v, hv, hpost⟩ | hnone := hplaced
  · -- a version that is written is this one, of the same post, or another
    have hwrite {w : Version} (hw : w.id = version → w.post = post) :
        (t.withVersion w).Places version post := by
      have hget : (t.withVersion w).versions.get? version =
          if version = w.id then some w else t.versions.get? version := Table.get?_insert _ _ _ _
      by_cases hid : version = w.id
      · exact .inl ⟨w, hget.trans (if_pos hid), hw hid.symm⟩
      · exact .inl ⟨v, hget.trans ((if_neg hid).trans hv), hpost⟩
    have hunused {w : Version} (hnew : t.versions.get? w.id = none) :
        w.id = version → w.post = post := by
      rintro rfl
      cases hnew.symm.trans hv
    have hlatest {id : Uuid} {latest : Version}
        (hlatest : latestVersion? t.versions.rows id = some latest) :
        latest.id = version → latest.post = post := by
      rintro rfl
      cases hv.symm.trans (hwf.get?_latest hlatest)
      exact hpost
    cases h with
    | look _ => exact .inl ⟨v, hv, hpost⟩
    | start _ _ _ _ hnew => exact hwrite (hunused hnew)
    | stack _ _ _ _ hnew => exact hwrite (hunused hnew)
    | amend hfound _ hw =>
      have howned := hlatest hfound
      exact hwrite (hw ▸ howned)
    | publish _ hfound _ hw =>
      have howned := hlatest hfound
      exact hwrite (hw ▸ howned)
    | @drop _ _ latest =>
      by_cases hid : version = latest.id
      · exact .inr (hid ▸ hwf.categoriesOf_withoutVersion_self latest.id)
      · exact .inl ⟨v, (Table.get?_erase _ _ _).trans ((if_neg hid).trans hv), hpost⟩
    | createCategory _ _ _ => exact .inl ⟨v, hv, hpost⟩
    | rename _ _ _ _ _ _ => exact .inl ⟨v, hv, hpost⟩
    | @attach r _ _ _ _ hattach =>
      have hversions := (t.attach_spares (r.links now)).2
      rw [hattach] at hversions
      exact .inl ⟨v, hversions ▸ hv, hpost⟩
  · exact .inr (hsame.trans hnone)

end Transition

end Weblog
