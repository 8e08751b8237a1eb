import Weblog.Proofs.Blog.Machine
import Weblog.Proofs.Store.Call
import Weblog.Proofs.Store.Latest

/-!
# Tables that stand for a blog

When the rows of posts and versions are those of a blog (`Represents`), the questions asked of the
rows have the answers that the machine gives: the latest version is the one that is shown
(`Represents.latest`), a version is found by its identifier whichever post it is of
(`Represents.version?_eq`). `Represents.change` says when writing rows keeps it so: one post
changes, and of its versions at most the last.
-/

namespace Weblog

/-! ## Histories -/

namespace History

variable {h : History} {id : Uuid} {v : Version}

theorem map_number_published (h : History) (id : Uuid) :
    (h.published id).map (·.number) =
      (List.range h.publications.length).map fun i : Nat => (i + 1 : Int) := by
  apply List.ext_getElem
  · simp [published]
  · intro i hi hi'
    simp [published, Publication.toVersion]

theorem length_published (h : History) (id : Uuid) :
    (h.published id).length = h.publications.length :=
  List.length_mapIdx

/-- The versions carry the numbers from one on, without a gap. -/
theorem map_number (h : History) (id : Uuid) :
    (h.versions id).map (·.number) =
      (List.range (h.versions id).length).map fun i : Nat => (i + 1 : Int) := by
  unfold versions
  rw [List.map_append, map_number_published, List.length_append, length_published]
  cases hdraft : h.draft with
  | none => simp [draftVersion?, hdraft]
  | some d =>
    simp [draftVersion?, hdraft, Draft.toVersion, last, List.range_succ]

theorem number_of_mem (hv : v ∈ h.versions id) :
    1 ≤ v.number ∧ v.number ≤ (h.versions id).length := by
  have hnumber := List.mem_map_of_mem (f := Version.number) hv
  rw [map_number] at hnumber
  obtain ⟨i, hi, hi'⟩ := List.mem_map.mp hnumber
  have hlt := List.mem_range.mp hi
  omega

theorem number_of_mem_published (hv : v ∈ h.published id) : v.number < h.last + 1 := by
  have hnumber := List.mem_map_of_mem (f := Version.number) hv
  rw [map_number_published] at hnumber
  obtain ⟨i, hi, hi'⟩ := List.mem_map.mp hnumber
  have hlt := List.mem_range.mp hi
  unfold last
  omega

theorem pairwise_number (h : History) (id : Uuid) :
    (h.versions id).Pairwise fun v w => v.number < w.number := by
  have hnumbers : ((h.versions id).map (·.number)).Pairwise (· < ·) := by
    rw [map_number]
    refine List.pairwise_map.mpr (List.pairwise_lt_range.imp fun hlt => ?_)
    omega
  exact List.pairwise_map.mp hnumbers

theorem post_of_mem_published (hv : v ∈ h.published id) : v.post = id := by
  obtain ⟨i, hi, rfl⟩ := List.mem_iff_getElem.mp hv
  simp [published, Publication.toVersion]

theorem post_of_mem (hv : v ∈ h.versions id) : v.post = id := by
  rcases List.mem_append.mp hv with hv | hv
  · exact post_of_mem_published hv
  · obtain ⟨d, -, rfl⟩ := Option.map_eq_some_iff.mp (Option.mem_toList.mp hv)
    rfl

theorem isSome_published_of_mem (hv : v ∈ h.published id) : v.published.isSome := by
  obtain ⟨i, hi, rfl⟩ := List.mem_iff_getElem.mp hv
  simp [published, Publication.toVersion]

theorem versions_of_draft {d : Draft} (hdraft : h.draft = some d) :
    h.versions id = h.published id ++ [d.toVersion id (h.last + 1)] := by
  simp [versions, draftVersion?, hdraft]

theorem versions_of_no_draft (hdraft : h.draft = none) : h.versions id = h.published id := by
  simp [versions, draftVersion?, hdraft]

/-- The last publication is the last of the published versions. -/
theorem lastPublished?_eq (h : History) (id : Uuid) :
    h.lastPublished? id = (h.published id).getLast? := by
  unfold lastPublished? published last
  rw [List.getLast?_eq_getElem?, List.getLast?_eq_getElem?, List.getElem?_mapIdx,
    List.length_mapIdx]
  cases hlast : h.publications[h.publications.length - 1]? with
  | none => rfl
  | some p =>
    have hlt := (List.getElem?_eq_some_iff.mp hlast).1
    simp only [Option.map_some, Option.some.injEq]
    congr 1
    omega

/-- The version that is shown is the last one. -/
theorem shown?_eq (h : History) (id : Uuid) : h.shown? id = (h.versions id).getLast? := by
  unfold shown? versions
  cases hdraft : h.draftVersion? id with
  | none => simp [lastPublished?_eq]
  | some v => simp

/-- The row of a post points to its last version. -/
theorem post_of_versions {vs : List Version} (hversions : h.versions id = vs) :
    h.post id =
      { id, current := vs.getLast?.map (·.id), created := h.created, updated := h.updated } := by
  rw [post, shown?_eq, hversions]

/-- Publishing one more text numbers it next. -/
theorem published_append (h : History) (p : Publication) (id : Uuid) {updated : Instant}
    {draft : Option Draft} :
    published { h with updated, publications := h.publications ++ [p], draft } id =
      h.published id ++ [p.toVersion id (h.last + 1)] := by
  simp [published, last, List.mapIdx_append]

end History

/-! ## Versions of a blog -/

namespace Blog

variable {b : Blog} {id : Uuid} {h : History} {v : Version}

theorem versionsOf_of_get? (hget : b.get? id = some h) : b.versionsOf id = h.versions id := by
  simp only [versionsOf, hget]

theorem versionsOf_of_draft {d : Draft} (hget : b.get? id = some h) (hdraft : h.draft = some d) :
    b.versionsOf id = h.published id ++ [d.toVersion id (h.last + 1)] :=
  (versionsOf_of_get? hget).trans (History.versions_of_draft hdraft)

theorem versionsOf_of_none (hget : b.get? id = none) : b.versionsOf id = [] := by
  simp only [versionsOf, hget]

theorem post_of_mem_versionsOf (hv : v ∈ b.versionsOf id) : v.post = id := by
  cases hget : b.get? id with
  | none => simp [versionsOf_of_none hget] at hv
  | some h => exact History.post_of_mem (versionsOf_of_get? hget ▸ hv)

theorem pairwise_number_versionsOf (b : Blog) (id : Uuid) :
    (b.versionsOf id).Pairwise fun v w => v.number < w.number := by
  cases hget : b.get? id with
  | none => exact versionsOf_of_none hget ▸ .nil
  | some h => exact versionsOf_of_get? hget ▸ h.pairwise_number id

/-- The versions of a post are told apart by their numbers. -/
theorem eq_of_number {w : Version} (hv : v ∈ b.versionsOf id) (hw : w ∈ b.versionsOf id)
    (hnumber : v.number = w.number) : v = w := by
  obtain ⟨i, hi, rfl⟩ := List.mem_iff_getElem.mp hv
  obtain ⟨j, hj, rfl⟩ := List.mem_iff_getElem.mp hw
  have hpairwise := List.pairwise_iff_getElem.mp (b.pairwise_number_versionsOf id)
  rcases Nat.lt_trichotomy i j with hlt | rfl | hgt
  · exact absurd hnumber (Int.ne_of_lt (hpairwise i j hi hj hlt))
  · rfl
  · exact absurd hnumber.symm (Int.ne_of_lt (hpairwise j i hj hi hgt))

theorem nodup_versionsOf (b : Blog) (id : Uuid) : (b.versionsOf id).Nodup :=
  (b.pairwise_number_versionsOf id).imp fun hlt heq => absurd (heq ▸ hlt) (Int.lt_irrefl _)

theorem get?_put (b : Blog) (id post : Uuid) (h : History) :
    (b.put id h).get? post = if post = id then some h else b.get? post :=
  Table.get?_insert b id post h

theorem versionsOf_put_self (b : Blog) (id : Uuid) (h : History) :
    (b.put id h).versionsOf id = h.versions id :=
  versionsOf_of_get? ((b.get?_put id id h).trans (if_pos rfl))

theorem versionsOf_put_of_ne {post : Uuid} (h : History) (hne : post ≠ id) :
    (b.put id h).versionsOf post = b.versionsOf post := by
  simp only [versionsOf, get?_put, if_neg hne]

end Blog

/-! ## Tables and blogs -/

/-- The posts and the versions in the tables are those of a blog. -/
structure Represents (t : Tables) (b : Blog) : Prop where
  posts : ∀ id, t.posts.get? id = (b.get? id).map (·.post id)
  versions : ∀ id v, t.versions.get? id = some v ↔ v.id = id ∧ v ∈ b.versionsOf v.post

theorem represents_empty : Represents .empty .empty where
  posts _ := rfl
  versions id v := by simp [Tables.empty, Blog.versionsOf]

namespace Represents

variable {t t' : Tables} {b : Blog} (hr : Represents t b)

include hr

theorem mem_rows {v : Version} : v ∈ t.versions.rows ↔ v ∈ b.versionsOf v.post := by
  rw [Table.mem_rows]
  constructor
  · rintro ⟨id, hget⟩
    exact ((hr.versions id v).mp hget).2
  · exact fun hv => ⟨v.id, (hr.versions v.id v).mpr ⟨rfl, hv⟩⟩

theorem get?_of_mem {v : Version} {id : Uuid} (hv : v ∈ b.versionsOf id) :
    t.versions.get? v.id = some v :=
  (hr.versions v.id v).mpr ⟨rfl, (Blog.post_of_mem_versionsOf hv).symm ▸ hv⟩

/-- A draft is stored under its identifier. -/
theorem get?_draft {id : Uuid} {h : History} {d : Draft} (hget : b.get? id = some h)
    (hdraft : h.draft = some d) :
    t.versions.get? d.version = some (d.toVersion id (h.last + 1)) := by
  have hmem : d.toVersion id (h.last + 1) ∈ b.versionsOf id := by
    rw [Blog.versionsOf_of_draft hget hdraft]
    exact List.mem_append_right _ List.mem_cons_self
  exact hr.get?_of_mem hmem

/-- The latest version in the tables is the last of the blog. -/
theorem latest (id : Uuid) : latestVersion? t.versions.rows id = (b.versionsOf id).getLast? := by
  cases hlast : (b.versionsOf id).getLast? with
  | none =>
    have hnil := List.getLast?_eq_none_iff.mp hlast
    refine latestVersion?_eq_none_iff.mpr fun v hv hpost => ?_
    have hmem := hr.mem_rows.mp hv
    rw [hpost, hnil] at hmem
    cases hmem
  | some v =>
    have hmem := List.mem_of_getLast? hlast
    have hpost := Blog.post_of_mem_versionsOf hmem
    refine foldl_newer _ (fun w hw _ => by cases hw) (fun w hw hne => ?_) (.inr ?_)
    · obtain ⟨hw, hwpost⟩ := List.mem_filter.mp hw
      have hwmem := hr.mem_rows.mp hw
      rw [of_decide_eq_true hwpost] at hwmem
      obtain ⟨front, hfront⟩ := List.getLast?_eq_some_iff.mp hlast
      have hpairwise := b.pairwise_number_versionsOf id
      rw [hfront] at hwmem hpairwise
      rcases List.mem_append.mp hwmem with hwmem | hwmem
      · exact (List.pairwise_append.mp hpairwise).2.2 w hwmem v List.mem_cons_self
      · exact absurd (List.mem_singleton.mp hwmem) hne
    · exact List.mem_filter.mpr ⟨hr.mem_rows.mpr (hpost.symm ▸ hmem), decide_eq_true hpost⟩

/-- The latest version of a post in the tables is the one that is shown. -/
theorem latest_of_get? {id : Uuid} {h : History} (hget : b.get? id = some h) :
    latestVersion? t.versions.rows id = h.shown? id := by
  rw [hr.latest, Blog.versionsOf_of_get? hget, h.shown?_eq]

theorem latest_of_draft {id : Uuid} {h : History} {d : Draft} (hget : b.get? id = some h)
    (hdraft : h.draft = some d) :
    latestVersion? t.versions.rows id = some (d.toVersion id (h.last + 1)) := by
  rw [hr.latest, Blog.versionsOf_of_draft hget hdraft, List.getLast?_concat]

/-- The version under an identifier is found by the machine, and no other. -/
theorem version?_eq (id : Uuid) : b.version? id = t.versions.get? id := by
  unfold Blog.version?
  cases hfound : b.keys.findSome? fun post => (b.versionsOf post).find? (·.id = id) with
  | some v =>
    obtain ⟨post, hpost, hfind⟩ := List.exists_of_findSome?_eq_some hfound
    have hid : v.id = id := by simpa using List.find?_some hfind
    exact hid ▸ (hr.get?_of_mem (List.mem_of_find?_eq_some hfind)).symm
  | none =>
    cases hget : t.versions.get? id with
    | none => rfl
    | some v =>
      obtain ⟨hid, hmem⟩ := (hr.versions id v).mp hget
      have hkey : v.post ∈ b.keys := by
        rw [Table.mem_keys]
        cases hpost : b.get? v.post with
        | none => simp [Blog.versionsOf_of_none hpost] at hmem
        | some h => exact ⟨h, rfl⟩
      have hnone := List.findSome?_eq_none_iff.mp hfound v.post hkey
      exact absurd hid (by simpa using List.find?_eq_none.mp hnone v hmem)

/-- The row that is shown of a post is its draft, or else its last publication. -/
theorem currentPost?_eq (id : Uuid) :
    t.currentPost? id =
      (b.get? id).bind fun h => (h.shown? id).map fun v => .of (h.post id) v := by
  unfold Tables.currentPost?
  rw [hr.posts]
  cases hget : b.get? id with
  | none => rfl
  | some h =>
    cases hshown : h.shown? id with
    | none => simp [History.post, hshown]
    | some v =>
      have hmem : v ∈ b.versionsOf id := by
        rw [Blog.versionsOf_of_get? hget]
        exact List.mem_of_getLast? (h.shown?_eq id ▸ hshown)
      have hpost := Blog.post_of_mem_versionsOf hmem
      simp [History.post, hshown, hr.get?_of_mem hmem, hpost]

/-- **Writing.** The tables stand for a blog still when one post is written and of its versions only
the last, which may be new, change or go. -/
theorem change {id key : Uuid} {h : History} {front : List Version} (old new : Option Version)
    (hold : b.versionsOf id = front ++ old.toList) (hnew : h.versions id = front ++ new.toList)
    (hslot : t.versions.get? key = old) (hkey : ∀ v, new = some v → v.id = key)
    (hposts : ∀ post,
      t'.posts.get? post = if post = id then some (h.post id) else t.posts.get? post)
    (hversions : ∀ i, t'.versions.get? i = if i = key then new else t.versions.get? i) :
    Represents t' (b.put id h) where
  posts post := by
    rw [hposts, Blog.get?_put, hr.posts]
    by_cases hpost : post = id
    · rw [if_pos hpost, if_pos hpost, hpost]
      rfl
    · rw [if_neg hpost, if_neg hpost]
  versions i v := by
    have hfront : ∀ w, w ∈ front → w.id ≠ key := by
      rintro w hw rfl
      have hwmem : w ∈ b.versionsOf id := hold ▸ List.mem_append_left _ hw
      obtain rfl := hslot.symm.trans (hr.get?_of_mem hwmem)
      have hnodup := hold ▸ b.nodup_versionsOf id
      exact (List.nodup_append.mp hnodup).2.2 w hw w (by simp) rfl
    have holdkey : ∀ w, w ∈ old.toList → w.id = key := fun w hw =>
      ((hr.versions key w).mp (hslot.trans (Option.mem_toList.mp hw))).1
    rw [hversions]
    by_cases hpost : v.post = id
    · rw [hpost, b.versionsOf_put_self, hnew, List.mem_append]
      by_cases hi : i = key
      · rw [if_pos hi, hi]
        constructor
        · exact fun hv => ⟨hkey v hv, .inr (Option.mem_toList.mpr hv)⟩
        · rintro ⟨hid, hv | hv⟩
          · exact absurd hid (hfront v hv)
          · exact Option.mem_toList.mp hv
      · rw [if_neg hi, hr.versions, hpost, hold, List.mem_append]
        constructor
        · rintro ⟨hid, hv | hv⟩
          · exact ⟨hid, .inl hv⟩
          · exact absurd (hid.symm.trans (holdkey v hv)) hi
        · rintro ⟨hid, hv | hv⟩
          · exact ⟨hid, .inl hv⟩
          · exact absurd (hid.symm.trans (hkey v (Option.mem_toList.mp hv))) hi
    · rw [Blog.versionsOf_put_of_ne h hpost]
      by_cases hi : i = key
      · rw [if_pos hi, hi]
        constructor
        · intro hv
          have hmem : v ∈ h.versions id := hnew ▸ List.mem_append_right _ (Option.mem_toList.mpr hv)
          exact absurd (History.post_of_mem hmem) hpost
        · rintro ⟨hid, hv⟩
          -- the row under the key would be of this post and of another
          obtain rfl := hslot.symm.trans (hid ▸ hr.get?_of_mem hv)
          have hmem : v ∈ b.versionsOf id := hold ▸ List.mem_append_right _ (by simp)
          exact absurd (Blog.post_of_mem_versionsOf hmem) hpost
      · rw [if_neg hi]
        exact hr.versions i v

/-- A version of a post is written, in the place of its last one or after it, and the post with
it. -/
theorem write {id : Uuid} {h : History} {front : List Version} {old : Option Version} {v : Version}
    (hold : b.versionsOf id = front ++ old.toList) (hslot : t.versions.get? v.id = old)
    (hnew : h.versions id = front ++ [v]) :
    Represents ((t.withVersion v).withPost (h.post id)) (b.put id h) :=
  hr.change old (some v) hold hnew hslot (fun _ hv => Option.some.inj hv ▸ rfl)
    (fun post => Table.get?_insert _ _ post _) (fun i => Table.get?_insert _ _ i _)

/-- The last version of a post is written anew. The row of the post stays as it is. -/
theorem rewrite {id : Uuid} {h h' : History} {front : List Version} {old v : Version}
    (hget : b.get? id = some h) (hold : h.versions id = front ++ [old])
    (hnew : h'.versions id = front ++ [v]) (hid : v.id = old.id) (hcreated : h'.created = h.created)
    (hupdated : h'.updated = h.updated) : Represents (t.withVersion v) (b.put id h') := by
  have hversions : b.versionsOf id = front ++ [old] := (Blog.versionsOf_of_get? hget).trans hold
  have hmem : old ∈ b.versionsOf id := hversions ▸ List.mem_append_right _ List.mem_cons_self
  have hrow : h'.post id = h.post id := by
    rw [History.post_of_versions hnew, History.post_of_versions hold, hcreated, hupdated]
    simp [hid]
  refine hr.change (some old) (some v) hversions hnew
    (hid ▸ hr.get?_of_mem hmem) (fun _ hv => Option.some.inj hv ▸ rfl) (fun post => ?_)
    (fun i => Table.get?_insert _ _ i _)
  by_cases hpost : post = id
  · rw [if_pos hpost, hpost, hrow]
    exact (hr.posts id).trans (by rw [hget]; rfl)
  · rw [if_neg hpost]
    rfl

/-- The draft of a post is written anew, under its identifier. -/
theorem amendDraft {id : Uuid} {h : History} {d d' : Draft} (hget : b.get? id = some h)
    (hdraft : h.draft = some d) (hversion : d'.version = d.version) :
    Represents (t.withVersion (d'.toVersion id (h.last + 1)))
      (b.put id { h with draft := some d' }) := by
  let h' : History := { h with draft := some d' }
  have hold : h.versions id = h.published id ++ [d.toVersion id (h.last + 1)] :=
    History.versions_of_draft hdraft
  have hnew : h'.versions id = h.published id ++ [d'.toVersion id (h.last + 1)] :=
    History.versions_of_draft rfl
  exact hr.rewrite hget hold hnew hversion rfl rfl

/-- A draft is started under an identifier that is not in use, and the post is written. -/
theorem startDraft {id : Uuid} {h : History} {d : Draft} (now : Instant) (hget : b.get? id = some h)
    (hdraft : h.draft = none) (hunused : b.version? d.version = none) :
    let h' : History := { h with updated := now, draft := some d }
    Represents ((t.withVersion (d.toVersion id (h.last + 1))).withPost (h'.post id))
      (b.put id h') := by
  intro h'
  have hold : b.versionsOf id = h.published id ++ (none : Option Version).toList :=
    (Blog.versionsOf_of_get? hget).trans
      ((History.versions_of_no_draft hdraft).trans (List.append_nil _).symm)
  have hnew : h'.versions id = h.published id ++ [d.toVersion id (h.last + 1)] :=
    History.versions_of_draft rfl
  have hslot : t.versions.get? d.version = none := (hr.version?_eq _).symm.trans hunused
  exact hr.write hold hslot hnew

/-- The last version of a post is removed, and the post is written. -/
theorem remove {id : Uuid} {h : History} {front : List Version} {old : Version}
    (hold : b.versionsOf id = front ++ [old]) (hnew : h.versions id = front) :
    Represents ((t.withoutVersion old.id).withPost (h.post id)) (b.put id h) := by
  have hmem : old ∈ b.versionsOf id := hold ▸ List.mem_append_right _ List.mem_cons_self
  exact hr.change (some old) none hold (hnew.trans (List.append_nil _).symm)
    (hr.get?_of_mem hmem) (fun _ hv => by cases hv)
    (fun post => Table.get?_insert _ _ post _) (fun i => Table.get?_erase _ _ i)

end Represents

end Weblog
