import Weblog.Proofs.Blog.Refinement
import Weblog.Proofs.Blog.Step

/-!
# How versions are numbered

The versions of a post carry the numbers from one on without a gap, only the last of them can be a
draft, and the post points to it. All this holds because the tables stand for a blog, in which
numbers are places in a list. What is left to count is how many versions there can be: only an edit
adds one to a post that has some (`Blog.Stepped.length_versionsOf_le`).

* `version_history`: what holds of the tables after every run.
-/

namespace Weblog

/-! ## How many versions there are -/

/-- Whether an operation edits a post. -/
def Operation.updates (id : Uuid) : Operation → Bool
  | .updatePost post _ => post = id
  | _ => false

/-- How many edits of a post succeeded. -/
def updatesOf (id : Uuid) (ops : List Operation) (outcomes : List (Outcome (Except Error Reply))) :
    Nat :=
  (ops.zip outcomes).countP fun (op, outcome) => op.updates id && outcome.reply?.isSome

theorem updatesOf_le (id : Uuid) (ops : List Operation)
    (outcomes : List (Outcome (Except Error Reply))) : updatesOf id ops outcomes ≤ ops.length := by
  refine Nat.le_trans List.countP_le_length ?_
  rw [List.length_zip]
  exact Nat.min_le_left _ _

theorem History.length_versions (h : History) (id : Uuid) :
    (h.versions id).length = h.publications.length + h.draft.toList.length := by
  unfold versions draftVersion?
  rw [List.length_append, length_published]
  cases h.draft <;> rfl

namespace History

variable {h : History} {id : Uuid} {v : Version}

/-- Only the version with the greatest number can be a draft. -/
theorem isSome_published_of_number (hv : v ∈ h.versions id)
    (hne : v.number ≠ (h.versions id).length) : v.published.isSome := by
  rcases List.mem_append.mp hv with hv | hv
  · exact isSome_published_of_mem hv
  · obtain ⟨d, hdraft, rfl⟩ := Option.map_eq_some_iff.mp (Option.mem_toList.mp hv)
    refine absurd ?_ hne
    rw [length_versions, hdraft]
    simp [Draft.toVersion, last]

/-- The version with the greatest number is shown. -/
theorem shown?_of_number (hv : v ∈ h.versions id) (hnumber : v.number = (h.versions id).length) :
    h.shown? id = some v := by
  obtain ⟨i, hi, rfl⟩ := List.mem_iff_getElem.mp hv
  have hplace : ((h.versions id)[i]).number = (i + 1 : Int) := by
    have hmap := congrArg (·[i]?) (h.map_number id)
    simpa [hi] using hmap
  rw [shown?_eq, List.getLast?_eq_getElem?, ← List.getElem?_eq_getElem hi]
  congr 1
  omega

end History

namespace Blog

variable {b : Blog} {id : Uuid} {h : History}

theorem length_put_le {n : Nat} (post : Uuid)
    (hle : (h.versions id).length ≤ max 1 (b.versionsOf id).length + n) :
    ((b.put id h).versionsOf post).length ≤
      max 1 (b.versionsOf post).length + if post = id then n else 0 := by
  by_cases hpost : post = id
  · rw [hpost, versionsOf_put_self, if_pos rfl]
    exact hle
  · rw [versionsOf_put_of_ne h hpost, if_neg hpost]
    omega

theorem length_put_of_le (post : Uuid)
    (hle : (h.versions id).length ≤ max 1 (b.versionsOf id).length) :
    ((b.put id h).versionsOf post).length ≤ max 1 (b.versionsOf post).length := by
  have hput := length_put_le (n := 0) post hle
  rwa [ite_self] at hput

theorem length_versionsOf (hget : b.get? id = some h) :
    (b.versionsOf id).length = h.publications.length + h.draft.toList.length := by
  rw [versionsOf_of_get? hget, History.length_versions]

/-- How many versions of a post an answer to an operation can have added. -/
def added (post : Uuid) (op : Operation) : Option (Except Error Reply) → Nat
  | some (.ok _) => if op.updates post then 1 else 0
  | _ => 0

/-- Only an edit that succeeds adds a version to a post that has one already. -/
theorem Stepped.length_versionsOf_le {sanitizer : Sanitizer} {now : Instant} {fresh : Nat → Uuid}
    {b' : Blog} {op : Operation} {answer? : Option (Except Error Reply)}
    (hstepped : Stepped sanitizer now fresh b op answer? b') (post : Uuid) :
    (b'.versionsOf post).length ≤ max 1 (b.versionsOf post).length + added post op answer? := by
  cases hstepped with
  | spare hspares => omega
  | refused => omega
  | start hd hgiven hget hunused =>
    refine Nat.le_trans (length_put_of_le post ?_) (Nat.le_add_right _ _)
    rw [History.length_versions]
    exact Nat.le_max_left 1 _
  | amend hget hdraft hd' =>
    have hold := length_versionsOf hget
    refine Nat.le_trans (length_put_of_le post ?_) (Nat.le_add_right _ _)
    rw [hdraft] at hold
    rw [History.length_versions]
    simp only [Option.toList_some, List.length_singleton] at hold ⊢
    omega
  | @stack id r h p d hget hdraft hlast hd hunused =>
    have hold := length_versionsOf hget
    refine Nat.le_trans (length_put_le (n := 1) post ?_) ?_
    · rw [History.length_versions]
      simp only [Option.toList_some, List.length_singleton]
      omega
    · by_cases hpost : post = id <;> simp [added, Operation.updates, hpost]
  | publish hget hdraft =>
    have hold := length_versionsOf hget
    refine Nat.le_trans (length_put_of_le post ?_) (Nat.le_add_right _ _)
    rw [hdraft] at hold
    rw [History.length_versions]
    simp only [Option.toList_some, List.length_singleton, List.length_append,
      Option.toList_none, List.length_nil] at hold ⊢
    omega
  | drop hget hdraft =>
    have hold := length_versionsOf hget
    refine Nat.le_trans (length_put_of_le post ?_) (Nat.le_add_right _ _)
    rw [History.length_versions]
    simp only [Option.toList_none, List.length_nil]
    omega

end Blog

/-! ## Runs -/

/-- One operation adds a version to a post that has one only if it is an edit that succeeds. -/
theorem length_perform (s : Surroundings) (sanitizer : Sanitizer) (op : Operation) {w : World}
    {t : Tables} {b : Blog} (hfree : w.store.Free t) (hr : Represents t b) :
    ∃ t' b', (op.perform s sanitizer w).2.store.Free t' ∧ Represents t' b' ∧
      ∀ id, (b'.versionsOf id).length ≤ max 1 (b.versionsOf id).length +
        if op.updates id && (op.perform s sanitizer w).1.reply?.isSome then 1 else 0 := by
  obtain ⟨t', hfree', ⟨_, hanswers, hr'⟩ | ⟨_, _, rfl⟩⟩ := perform_follows s sanitizer op hfree hr
  · refine ⟨t', _, hfree', hr', fun id => ?_⟩
    have hstepped := b.stepped_step sanitizer (s.clock w.clockReads)
      (fun n => s.ids (w.idsUsed + n)) w.store.tables.categoriesOf op
    refine Nat.le_trans (hstepped.length_versionsOf_le id) (Nat.add_le_add_left ?_ _)
    change Blog.added id op (w.said s sanitizer b op).1 ≤ _
    cases hsaid : (w.said s sanitizer b op).1 with
    | none => exact Nat.zero_le _
    | some answer =>
      rw [hanswers answer hsaid]
      cases answer with
      | error e => exact Nat.zero_le _
      | ok reply => simp [Blog.added, Outcome.reply?]
  · exact ⟨t', b, hfree', hr, fun id => by omega⟩

/-- How many versions a post has after a run, counted by its edits. -/
theorem length_performAll (s : Surroundings) (sanitizer : Sanitizer) (ops : List Operation)
    {w : World} {t : Tables} {b : Blog} (hfree : w.store.Free t) (hr : Represents t b) :
    ∃ t' b', (performAll s sanitizer ops w).2.store.Free t' ∧ Represents t' b' ∧
      ∀ id, (b'.versionsOf id).length ≤
        max 1 (b.versionsOf id).length + updatesOf id ops (performAll s sanitizer ops w).1 := by
  induction ops generalizing w t b with
  | nil => exact ⟨t, b, hfree, hr, fun id => by omega⟩
  | cons op rest ih =>
    obtain ⟨t₁, b₁, hfree₁, hr₁, hstep⟩ := length_perform s sanitizer op hfree hr
    obtain ⟨t', b', hfree', hr', hrest⟩ := ih hfree₁ hr₁
    refine ⟨t', b', hfree', hr', fun id => ?_⟩
    have hsum : updatesOf id (op :: rest) (performAll s sanitizer (op :: rest) w).1 =
        updatesOf id rest (performAll s sanitizer rest (op.perform s sanitizer w).2).1 +
          if op.updates id && (op.perform s sanitizer w).1.reply?.isSome then 1 else 0 :=
      List.countP_cons
    have h₁ := hstep id
    have h₂ := hrest id
    rw [hsum]
    omega

/-- **The version history.** After any run on an empty store, with whatever clock, identifiers and
faults: the versions of every post that is stored carry the numbers from one to how many there are;
every version but the last is published; the post points to the last version, and to none exactly
when there is none; there are at most as many as the successful edits of the post and one. Every
version that is stored is of a post that is stored. And no number comes near its bound in a run that
is not longer than the bound. -/
theorem version_history (s : Surroundings) (sanitizer : Sanitizer) (ops : List Operation) :
    let ran := performAll s sanitizer ops World.initial
    let t := ran.2.store.tables
    (∀ id post, t.posts.get? id = some post →
      let versions := versionsOfPost t.versions.rows id
      (∀ v, v ∈ versions ↔ t.versions.get? v.id = some v ∧ v.post = id) ∧
      versions.map (·.number) = (List.range versions.length).map (fun i : Nat => (i + 1 : Int)) ∧
      (∀ v ∈ versions, v.number ≠ versions.length → v.published.isSome) ∧
      (∀ v ∈ versions, v.number = versions.length → post.current = some v.id) ∧
      (post.current = none ↔ versions = []) ∧
      versions.length ≤ 1 + updatesOf id ops ran.1) ∧
    (∀ key v, t.versions.get? key = some v → v.id = key ∧ t.posts.contains v.post = true) ∧
    (ops.length + 1 < 9223372036854775807 →
      ∀ key v, t.versions.get? key = some v →
        1 ≤ v.number ∧ v.number + 1 ≤ 9223372036854775807) := by
  obtain ⟨t, b, hfree, hr, hlength⟩ := length_performAll s sanitizer ops (w := World.initial) rfl
    represents_empty
  have htables : (performAll s sanitizer ops World.initial).2.store.tables = t :=
    congrArg Store.tables hfree
  intro ran t'
  simp only [t', ran, htables]
  refine ⟨fun id post hpost => ?_, fun key v hv => ?_, fun hshort key v hv => ?_⟩
  · rw [hr.posts] at hpost
    obtain ⟨h, hget, rfl⟩ := Option.map_eq_some_iff.mp hpost
    rw [hr.versionsOfPost_eq]
    have hbound := hlength id
    have hversions := Blog.versionsOf_of_get? hget
    refine ⟨fun v => ⟨fun hv => ⟨hr.get?_of_mem hv, Blog.post_of_mem_versionsOf hv⟩, ?_⟩, ?_⟩
    · rintro ⟨hv, rfl⟩
      exact ((hr.versions v.id v).mp hv).2
    · rw [hversions] at hbound ⊢
      refine ⟨h.map_number id, fun v => History.isSome_published_of_number, ?_, ?_, hbound⟩
      · intro v hv hnumber
        simp only [History.post, History.shown?_of_number hv hnumber, Option.map_some]
      · simp only [History.post, Option.map_eq_none_iff, h.shown?_eq, List.getLast?_eq_none_iff]
  · obtain ⟨hid, hmem⟩ := (hr.versions key v).mp hv
    refine ⟨hid, ?_⟩
    cases hget : b.get? v.post with
    | none => simp [Blog.versionsOf_of_none hget] at hmem
    | some h => exact Table.contains_iff.mpr ⟨h.post v.post, by rw [hr.posts, hget]; rfl⟩
  · obtain ⟨-, hmem⟩ := (hr.versions key v).mp hv
    have hbound := hlength v.post
    have hops := updatesOf_le v.post ops (performAll s sanitizer ops World.initial).1
    cases hget : b.get? v.post with
    | none => simp [Blog.versionsOf_of_none hget] at hmem
    | some h =>
      rw [Blog.versionsOf_of_get? hget] at hmem hbound
      have hone : (Blog.versionsOf .empty v.post).length = 0 := rfl
      have hnumber := History.number_of_mem hmem
      omega

end Weblog
