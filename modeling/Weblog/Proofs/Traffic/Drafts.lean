import Weblog.Proofs.Blog.Numbering
import Weblog.Proofs.Traffic.Serial

/-!
# Drafts of requests that compete

When requests are served one after another, a draft is published once (`Serial.published_once`), and
a published version gets a second draft only after its first one was deleted
(`Serial.deleted_between`).
-/

namespace Weblog

/-! ## Steps -/

namespace Answered

variable {sanitizer : Sanitizer} {d : Answered} {t : Tables} {b : Blog}

/-- A request that fits takes a step of the machine. -/
theorem Fits.stepped (h : d.Fits sanitizer t) (hr : Represents t b) :
    ∃ answer? b', Blog.Stepped sanitizer (d.times.getD 0 .epoch) (fun n => d.ids.getD n (.ofNat 0))
        b d.op answer? b' ∧
      (∀ answer, answer? = some answer → d.answer = answer) ∧
      Represents (d.effect sanitizer t).tables b' := by
  obtain ⟨answer?, b', hstepped, hanswers, hr'⟩ := effect_stepped hr sanitizer
    (d.times.getD 0 .epoch) (fun n => d.ids.getD n (.ofNat 0)) d.op
  refine ⟨answer?, b', hstepped, fun answer hanswer => ?_, hr'⟩
  exact h.answer.symm.trans (hanswers answer hanswer)

/-- The version that a request published. -/
def publishes? (d : Answered) : Option Uuid :=
  match d.op, d.answer with
  | .publishPost _, .ok (.published r) => some r.version
  | _, _ => none

/-- The request is an edit that started a draft on a published version, the latest of its post. -/
def StacksOn (d : Answered) (t : Tables) (u : Version) : Prop :=
  (∃ r, d.op = .updatePost u.post r) ∧ latestVersion? t.versions.rows u.post = some u ∧
    u.published.isSome ∧ ∃ reply, d.answer = .ok reply

/-- What is published was a draft and is none any more. -/
theorem Fits.publishes {v : Uuid} (h : d.Fits sanitizer t) (hr : Represents t b)
    (hv : d.publishes? = some v) :
    (∃ row, t.versions.get? v = some row ∧ row.published = none) ∧
      ∃ row, (d.effect sanitizer t).tables.versions.get? v = some row ∧ row.published.isSome := by
  obtain ⟨answer?, b', hstepped, hanswers, hr'⟩ := h.stepped hr
  obtain ⟨op, answer, times, ids⟩ := d
  cases hstepped with
  | spare hspares =>
    cases op with
    | publishPost id => cases hspares
    | _ => cases hv
  | refused =>
    rw [publishes?, hanswers _ rfl] at hv
    cases op <;> cases hv
  | start | amend | stack | drop => cases hv
  | @publish id history draft hget hdraft =>
    rw [publishes?, hanswers _ rfl] at hv
    cases hv
    refine ⟨⟨_, hr.get?_draft hget hdraft, rfl⟩, ?_⟩
    let p := draft.publish (times.getD 0 .epoch)
    have hmem : p.toVersion id (history.last + 1) ∈ (b.put id { history with
        updated := times.getD 0 .epoch, publications := history.publications ++ [p]
        draft := none }).versionsOf id := by
      rw [Blog.versionsOf_put_self, History.versions_of_no_draft rfl, History.published_append]
      exact List.mem_append_right _ List.mem_cons_self
    exact ⟨_, hr'.get?_of_mem hmem, rfl⟩

end Answered

/-! ## Publishing -/

namespace Serial

variable {sanitizer : Sanitizer} {t t' : Tables} {b : Blog} {done : List Answered}

/-- What is published already is not published again. -/
theorem not_published_again (h : Serial sanitizer t done t') (hr : Represents t b) {v : Uuid}
    {row : Version} (hv : t.versions.get? v = some row) (hpublished : row.published.isSome) :
    v ∉ done.filterMap Answered.publishes? := by
  induction h generalizing b with
  | nil => exact List.not_mem_nil
  | @cons t t' d rest hfits hrest ih =>
    obtain ⟨_, b', -, -, hr'⟩ := hfits.stepped hr
    have hretains := effect_retains sanitizer d.op (d.times.getD 0 .epoch)
      (fun n => d.ids.getD n (.ofNat 0)) hr
    have hlater := ih hr' (hretains.versions v row hv hpublished)
    cases hd : d.publishes? with
    | none =>
      rw [List.filterMap_cons_none hd]
      exact hlater
    | some v' =>
      rw [List.filterMap_cons_some hd, List.mem_cons, not_or]
      refine ⟨?_, hlater⟩
      rintro rfl
      obtain ⟨⟨row', hv', hdraft⟩, -⟩ := hfits.publishes hr hd
      cases hv.symm.trans hv'
      rw [hdraft] at hpublished
      cases hpublished

theorem published_once (h : Serial sanitizer t done t') (hr : Represents t b) :
    (done.filterMap Answered.publishes?).Nodup := by
  induction h generalizing b with
  | nil => exact .nil
  | @cons t t' d rest hfits hrest ih =>
    obtain ⟨_, b', -, -, hr'⟩ := hfits.stepped hr
    cases hd : d.publishes? with
    | none =>
      rw [List.filterMap_cons_none hd]
      exact ih hr'
    | some v =>
      obtain ⟨-, row, hv, hpublished⟩ := hfits.publishes hr hd
      rw [List.filterMap_cons_some hd, List.nodup_cons]
      exact ⟨hrest.not_published_again hr' hv hpublished, ih hr'⟩

end Serial

/-! ## Stacking -/

namespace Blog

variable {sanitizer : Sanitizer} {now : Instant} {fresh : Nat → Uuid} {b b' : Blog} {op : Operation}
  {answer? : Option (Except Error Reply)}

theorem length_put_mono {id : Uuid} {h : History} (post : Uuid)
    (hle : post = id → (b.versionsOf id).length ≤ (h.versions id).length) :
    (b.versionsOf post).length ≤ ((b.put id h).versionsOf post).length := by
  by_cases hpost : post = id
  · rw [hpost, versionsOf_put_self]
    exact hle hpost
  · exact Nat.le_of_eq (congrArg List.length (versionsOf_put_of_ne h hpost).symm)

/-- Only the deletion of a draft takes a version from a post. -/
theorem Stepped.length_versionsOf_mono (h : Stepped sanitizer now fresh b op answer? b')
    (post : Uuid) (hkept : op = .deleteDraft post → ∀ reply, answer? ≠ some (.ok reply)) :
    (b.versionsOf post).length ≤ (b'.versionsOf post).length := by
  cases h with
  | spare hspares => exact Nat.le_refl _
  | refused => exact Nat.le_refl _
  | start hd hgiven hget hunused =>
    apply length_put_mono
    intro hpost
    rw [versionsOf_of_none hget]
    exact Nat.zero_le _
  | amend hget hdraft hd' =>
    apply length_put_mono
    intro hpost
    rw [length_versionsOf hget, History.length_versions, hdraft]
    exact Nat.le_refl _
  | stack hget hdraft hlast hd hunused =>
    apply length_put_mono
    intro hpost
    rw [length_versionsOf hget, History.length_versions, hdraft]
    exact Nat.le_add_right _ _
  | publish hget hdraft =>
    apply length_put_mono
    intro hpost
    rw [length_versionsOf hget, History.length_versions, hdraft]
    simp
  | @drop id h d hget hdraft =>
    apply length_put_mono
    rintro rfl
    exact absurd rfl (hkept rfl _)

/-- The latest version has as its number how many versions there are. -/
theorem number_of_getLast? {post : Uuid} {v : Version} (h : (b.versionsOf post).getLast? = some v) :
    v.number = (b.versionsOf post).length := by
  cases hget : b.get? post with
  | none =>
    rw [versionsOf_of_none hget] at h
    cases h
  | some history =>
    rw [versionsOf_of_get? hget] at h ⊢
    have hpositive := List.length_pos_of_mem (List.mem_of_getLast? h)
    have hnumbers := congrArg List.getLast? (history.map_number post)
    rw [List.getLast?_map, h, List.getLast?_map, List.getLast?_range,
      if_neg (Nat.ne_of_gt hpositive)] at hnumbers
    have hnumber := Option.some.inj hnumbers
    dsimp only at hnumber
    omega

end Blog

namespace Answered

variable {sanitizer : Sanitizer} {d : Answered} {t : Tables} {b : Blog} {u : Version}

theorem StacksOn.number (hr : Represents t b) (hu : d.StacksOn t u) :
    u.number = (b.versionsOf u.post).length := by
  obtain ⟨-, hlatest, -, -⟩ := hu
  rw [hr.latest] at hlatest
  exact Blog.number_of_getLast? hlatest

/-- A draft that is started is one version more. -/
theorem Fits.stacks (h : d.Fits sanitizer t) (hr : Represents t b) (hu : d.StacksOn t u) :
    ∃ b', Represents (d.effect sanitizer t).tables b' ∧
      (b'.versionsOf u.post).length = (b.versionsOf u.post).length + 1 := by
  obtain ⟨⟨r, hop⟩, hlatest, hpublished, reply, hok⟩ := hu
  obtain ⟨answer?, b', hstepped, hanswers, hr'⟩ := h.stepped hr
  rw [hop] at hstepped
  cases hstepped with
  | spare hspares => cases hspares
  | refused =>
    rw [hok] at hanswers
    cases hanswers _ rfl
  | @amend _ _ history draft _ hget hdraft hd' =>
    -- the latest version would be a draft
    rw [hr.latest_of_draft hget hdraft] at hlatest
    rw [← Option.some.inj hlatest] at hpublished
    cases hpublished
  | @stack _ _ history p draft hget hdraft hlast hd hunused =>
    refine ⟨_, hr', ?_⟩
    rw [Blog.versionsOf_put_self, Blog.versionsOf_of_get? hget, History.length_versions,
      History.length_versions, hdraft]
    rfl

end Answered

namespace Serial

variable {sanitizer : Sanitizer} {t t' : Tables} {b : Blog} {done : List Answered}

theorem length_versionsOf_mono (h : Serial sanitizer t done t') (hr : Represents t b)
    (post : Uuid) (hkept : ∀ e ∈ done, e.op = .deleteDraft post → ∀ reply, e.answer ≠ .ok reply) :
    ∃ b', Represents t' b' ∧ (b.versionsOf post).length ≤ (b'.versionsOf post).length := by
  induction h generalizing b with
  | nil => exact ⟨b, hr, Nat.le_refl _⟩
  | @cons t t' d rest hfits hrest ih =>
    obtain ⟨answer?, b₁, hstepped, hanswers, hr₁⟩ := hfits.stepped hr
    have hstep := hstepped.length_versionsOf_mono post fun hop reply hanswer =>
      hkept d List.mem_cons_self hop reply (hanswers _ hanswer)
    obtain ⟨b', hr', hlater⟩ := ih hr₁ fun e he => hkept e (List.mem_cons_of_mem _ he)
    exact ⟨b', hr', Nat.le_trans hstep hlater⟩

/-- Between two edits that start a draft on one published version the draft was deleted. -/
theorem deleted_between {t₁ : Tables} {d d' : Answered} {u : Version} (hr : Represents t b)
    (hu : d.StacksOn t u) (hfits : d.Fits sanitizer t)
    (h : Serial sanitizer (d.effect sanitizer t).tables done t₁) (hu' : d'.StacksOn t₁ u) :
    ∃ e ∈ done, e.op = .deleteDraft u.post ∧ ∃ reply, e.answer = .ok reply := by
  obtain ⟨b₁, hr₁, hmore⟩ := hfits.stacks hr hu
  by_cases hdeleted : ∃ e ∈ done, e.op = .deleteDraft u.post ∧ ∃ reply, e.answer = .ok reply
  · exact hdeleted
  · -- then the draft is there still, and the published version is not the latest
    obtain ⟨b₂, hr₂, hle⟩ := h.length_versionsOf_mono hr₁ u.post
      fun e he hop reply hanswer => hdeleted ⟨e, he, hop, reply, hanswer⟩
    have hbefore := hu.number hr
    have hafter := hu'.number hr₂
    omega

end Serial

end Weblog
