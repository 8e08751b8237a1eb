import Weblog.Store.Tables

/-!
# The versions of a post among many rows

Whatever the order of the rows, the search for the latest version of a post answers one of its
versions (`mem_of_latestVersion?`) with the greatest number (`le_of_latestVersion?`), if there is any
(`latestVersion?_eq_none_iff`), and if one of them is newer than all others, it answers that one
(`foldl_newer`). The versions of a post are listed by their numbers (`mem_versionsOfPost_iff`,
`pairwise_versionsOfPost`).
-/

namespace Weblog

/-! ## The latest version -/

/-- The newer of two versions, the second if they have one number. -/
def newer (best : Option Version) (v : Version) : Option Version :=
  match best with
  | none => some v
  | some b => if b.number ≤ v.number then some v else some b

theorem newer_cases (best : Option Version) (v : Version) :
    newer best v = some v ∨ newer best v = best := by
  cases best with
  | none => exact .inl rfl
  | some b =>
    rw [newer]
    split
    · exact .inl rfl
    · exact .inr rfl

/-- Among versions that are all older than one of them, that one is the newest. -/
theorem foldl_newer {v : Version} (ws : List Version) {best : Option Version}
    (hbest : ∀ w, best = some w → w ≠ v → w.number < v.number)
    (hws : ∀ w ∈ ws, w ≠ v → w.number < v.number) (hmem : best = some v ∨ v ∈ ws) :
    ws.foldl newer best = some v := by
  induction ws generalizing best with
  | nil =>
    rcases hmem with rfl | hmem
    · rfl
    · cases hmem
  | cons w rest ih =>
    have hrest : ∀ x ∈ rest, x ≠ v → x.number < v.number := fun x hx =>
      hws x (List.mem_cons_of_mem _ hx)
    rw [List.foldl_cons]
    by_cases hw : w = v
    · -- the newest itself takes the lead
      subst hw
      have hlead : newer best w = some w := by
        cases best with
        | none => rfl
        | some b =>
          by_cases hb : b = w
          · exact hb ▸ if_pos (Int.le_refl _)
          · exact if_pos (Int.le_of_lt (hbest b rfl hb))
      exact ih (fun x hx hne => absurd (Option.some.inj (hlead.symm.trans hx)).symm hne) hrest
        (.inl hlead)
    · have hlt := hws w List.mem_cons_self hw
      rcases hmem with rfl | hmem
      · -- the newest leads already
        have hlead : newer (some v) w = some v := if_neg (by omega)
        exact ih (fun x hx hne => absurd (Option.some.inj (hlead.symm.trans hx)).symm hne) hrest
          (.inl hlead)
      · -- the newest is still to come
        have hmem' := (List.mem_cons.mp hmem).resolve_left (Ne.symm hw)
        refine ih (fun x hx hne => ?_) hrest (.inr hmem')
        rcases newer_cases best w with hnewer | hnewer
        · obtain rfl := Option.some.inj (hnewer.symm.trans hx)
          exact hlt
        · exact hbest x (hnewer.symm.trans hx) hne

theorem latestVersion?_eq (rows : List Version) (post : Uuid) :
    latestVersion? rows post = (rows.filter (·.post = post)).foldl newer none := rfl

theorem mem_of_foldl_newer {v : Version} (ws : List Version) {best : Option Version}
    (h : ws.foldl newer best = some v) : best = some v ∨ v ∈ ws := by
  induction ws generalizing best with
  | nil => exact .inl h
  | cons w rest ih =>
    rcases ih h with hlead | hrest
    · rcases newer_cases best w with hnewer | hnewer
      · obtain rfl := Option.some.inj (hnewer.symm.trans hlead)
        exact .inr List.mem_cons_self
      · exact .inl (hnewer.symm.trans hlead)
    · exact .inr (List.mem_cons_of_mem _ hrest)

/-- Whoever leads after a version came is as new as that one and as whoever led before. -/
theorem le_newer (best : Option Version) (v : Version) : ∃ b, newer best v = some b ∧
    v.number ≤ b.number ∧ ∀ x, best = some x → x.number ≤ b.number := by
  cases best with
  | none => exact ⟨v, rfl, Int.le_refl _, fun x hx => by cases hx⟩
  | some b =>
    by_cases hle : b.number ≤ v.number
    · refine ⟨v, if_pos hle, Int.le_refl _, fun x hx => ?_⟩
      exact Option.some.inj hx ▸ hle
    · refine ⟨b, if_neg hle, by omega, fun x hx => ?_⟩
      exact Int.le_of_eq (congrArg Version.number (Option.some.inj hx).symm)

/-- Whoever leads in the end is as new as all that came and as whoever led before. -/
theorem le_of_foldl_newer {v : Version} (ws : List Version) {best : Option Version}
    (h : ws.foldl newer best = some v) :
    (∀ b, best = some b → b.number ≤ v.number) ∧ ∀ w ∈ ws, w.number ≤ v.number := by
  induction ws generalizing best with
  | nil =>
    obtain rfl : best = some v := h
    refine ⟨fun b hb => ?_, List.forall_mem_nil _⟩
    exact Int.le_of_eq (congrArg Version.number (Option.some.inj hb).symm)
  | cons w rest ih =>
    obtain ⟨hlead, hrest⟩ := ih h
    obtain ⟨b, hb, hw, hbest⟩ := le_newer best w
    have hle := hlead b hb
    exact ⟨fun x hx => Int.le_trans (hbest x hx) hle,
      List.forall_mem_cons.mpr ⟨Int.le_trans hw hle, hrest⟩⟩

/-- Nobody leads in the end only if nobody ever came. -/
theorem foldl_newer_eq_none_iff {ws : List Version} {best : Option Version} :
    ws.foldl newer best = none ↔ best = none ∧ ws = [] := by
  induction ws generalizing best with
  | nil => exact ⟨fun h => ⟨h, rfl⟩, And.left⟩
  | cons w rest ih =>
    obtain ⟨b, hb, -⟩ := le_newer best w
    rw [List.foldl_cons, ih, hb]
    constructor
    · rintro ⟨hnone, -⟩
      cases hnone
    · rintro ⟨-, hnil⟩
      cases hnil

/-- The latest version of a post is one of its versions. -/
theorem mem_of_latestVersion? {rows : List Version} {post : Uuid} {v : Version}
    (h : latestVersion? rows post = some v) : v ∈ rows ∧ v.post = post := by
  rw [latestVersion?_eq] at h
  rcases mem_of_foldl_newer _ h with hnone | hmem
  · cases hnone
  · exact (List.mem_filter.mp hmem).imp_right of_decide_eq_true

/-- No version of a post has a greater number than the latest. -/
theorem le_of_latestVersion? {rows : List Version} {post : Uuid} {v : Version}
    (h : latestVersion? rows post = some v) : ∀ u ∈ rows, u.post = post → u.number ≤ v.number := by
  intro u hu hpost
  rw [latestVersion?_eq] at h
  exact (le_of_foldl_newer _ h).2 u (List.mem_filter.mpr ⟨hu, decide_eq_true hpost⟩)

/-- A post has a latest version as soon as it has a version. -/
theorem latestVersion?_eq_none_iff {rows : List Version} {post : Uuid} :
    latestVersion? rows post = none ↔ ∀ v ∈ rows, v.post ≠ post := by
  rw [latestVersion?_eq, foldl_newer_eq_none_iff, List.filter_eq_nil_iff]
  simp

/-! ## All versions -/

theorem versionsOfPost_perm (rows : List Version) (post : Uuid) :
    (versionsOfPost rows post).Perm (rows.filter (·.post = post)) :=
  List.mergeSort_perm _ _

theorem mem_versionsOfPost_iff {rows : List Version} {post : Uuid} {v : Version} :
    v ∈ versionsOfPost rows post ↔ v ∈ rows ∧ v.post = post := by
  rw [(versionsOfPost_perm rows post).mem_iff, List.mem_filter, decide_eq_true_iff]

theorem pairwise_versionsOfPost (rows : List Version) (post : Uuid) :
    (versionsOfPost rows post).Pairwise fun v w => v.number ≤ w.number := by
  refine (List.pairwise_mergeSort (fun u v w huv hvw => ?_) (fun v w => ?_) _).imp
    of_decide_eq_true
  · exact decide_eq_true (Int.le_trans (of_decide_eq_true huv) (of_decide_eq_true hvw))
  · simpa using Int.le_total v.number w.number

end Weblog
