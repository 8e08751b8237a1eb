import Weblog.Proofs.Blog.Numbering

/-!
# The times of a post

A post carries times: its own, and those at which its versions were started and published. In the
order in which the versions are numbered, with the last change of the post at the end, they are its
timeline. Every step of the machine that changes the timeline takes at most one time away and adds
the present one at the end (`Blog.Stamped`). So the times of a post are in order if the readings of
the clock were, taken in the order in which the steps took place.

* `effect_stamped`: what an operation makes of the timeline of a post.
* `Represents.chronological`: what it says of the rows that a timeline is in order.
-/

namespace Weblog

namespace Instant

theorem le_refl (a : Instant) : a ≤ a :=
  .inr ⟨rfl, Nat.le_refl _⟩

theorem le_trans {a b c : Instant} (h : a ≤ b) (h' : b ≤ c) : a ≤ c := by
  rcases h with hlt | ⟨heq, hle⟩
  · rcases h' with hlt' | ⟨heq', -⟩
    · exact .inl (Int.lt_trans hlt hlt')
    · exact .inl (heq' ▸ hlt)
  · rcases h' with hlt' | ⟨heq', hle'⟩
    · exact .inl (heq ▸ hlt')
    · exact .inr ⟨heq.trans heq', Nat.le_trans hle hle'⟩

end Instant

/-! ## Timelines -/

/-- When a version was started and, if it was, published. -/
def Version.moments (v : Version) : List Instant :=
  v.created :: v.published.toList

namespace History

/-- The times of the versions, in the order of their numbers. -/
def moments (h : History) : List Instant :=
  h.publications.flatMap (fun p => [p.created, p.published]) ++ h.draft.toList.map (·.created)

def timeline (h : History) : List Instant :=
  h.created :: h.moments ++ [h.updated]

theorem moments_eq (h : History) (id : Uuid) :
    h.moments = (h.versions id).flatMap Version.moments := by
  have hpublished : (h.published id).map Version.moments =
      h.publications.map fun p => [p.created, p.published] := by
    apply List.ext_getElem
    · rw [List.length_map, List.length_map, length_published]
    · intro i hi hi'
      simp [published, Publication.toVersion, Version.moments]
  unfold moments versions draftVersion?
  rw [List.flatMap_append, List.flatMap_def, List.flatMap_def, hpublished]
  cases h.draft <;> rfl

theorem moments_of_draft {h : History} {d : Draft} (hdraft : h.draft = some d) :
    h.moments = { h with draft := none }.moments ++ [d.created] := by
  simp [moments, hdraft]

end History

namespace Blog

/-- The times of a post, if there is one. -/
def timeline (b : Blog) (post : Uuid) : List Instant :=
  match b.get? post with
  | some h => h.timeline
  | none => []

variable {b b' b'' : Blog} {id post : Uuid} {h h' : History}

theorem timeline_of_get? (hget : b.get? id = some h) : b.timeline id = h.timeline := by
  simp only [timeline, hget]

theorem timeline_put_self (b : Blog) (id : Uuid) (h : History) :
    (b.put id h).timeline id = h.timeline :=
  timeline_of_get? ((b.get?_put id id h).trans (if_pos rfl))

theorem timeline_put_of_ne (h : History) (hne : post ≠ id) :
    (b.put id h).timeline post = b.timeline post := by
  simp only [timeline, get?_put, if_neg hne]

/-! ## Stamps -/

/-- What became of the timeline of a post as some readings of the clock were put on it: it ends with
the last of them, and it is in order if the timeline before and the readings are. -/
structure Stamped (post : Uuid) (b b' : Blog) (stamps : List Instant) : Prop where
  last : (b'.timeline post).getLast? = (b.timeline post ++ stamps).getLast?
  ordered : ∀ later, (b.timeline post ++ (stamps ++ later)).Pairwise (· ≤ ·) →
    (b'.timeline post ++ later).Pairwise (· ≤ ·)

theorem Stamped.of_eq (heq : b'.timeline post = b.timeline post) : Stamped post b b' [] where
  last := by rw [heq, List.append_nil]
  ordered later hordered := by rwa [heq]

theorem Stamped.trans {stamps stamps' : List Instant} (h : Stamped post b b' stamps)
    (h' : Stamped post b' b'' stamps') : Stamped post b b'' (stamps ++ stamps') where
  last := by
    rw [h'.last, List.getLast?_append, h.last, ← List.getLast?_append, List.append_assoc]
  ordered later hordered := by
    rw [List.append_assoc] at hordered
    exact h'.ordered later (h.ordered _ hordered)

/-- A time can be told twice. -/
theorem pairwise_twice {front back : List Instant} {now : Instant}
    (h : (front ++ now :: back).Pairwise (· ≤ ·)) :
    (front ++ now :: now :: back).Pairwise (· ≤ ·) := by
  obtain ⟨hfront, hback, hacross⟩ := List.pairwise_append.mp h
  refine List.pairwise_append.mpr ⟨hfront, List.pairwise_cons.mpr ⟨?_, hback⟩, ?_⟩
  · intro x hx
    rcases List.mem_cons.mp hx with rfl | hx
    · exact Instant.le_refl _
    · exact (List.pairwise_cons.mp hback).1 x hx
  · intro x hx y hy
    rcases List.mem_cons.mp hy with rfl | hy
    · exact hacross x hx _ List.mem_cons_self
    · exact hacross x hx y hy

/-- A history is written whose timeline adds nothing but the present time, and ends with it. -/
theorem Stamped.write {now : Instant} (hupdated : h'.updated = now)
    (htimes : (h'.created :: h'.moments).Sublist (b.timeline id ++ [now, now])) :
    Stamped post b (b.put id h') (if id = post then some now else none).toList := by
  by_cases hpost : id = post
  · subst hpost
    have htimeline : (b.put id h').timeline id = h'.created :: h'.moments ++ [now] := by
      rw [timeline_put_self, History.timeline, hupdated]
    rw [if_pos rfl]
    refine ⟨?_, fun later hordered => ?_⟩
    · rw [htimeline, List.getLast?_concat]
      exact List.getLast?_concat.symm
    · have htwice := pairwise_twice (pairwise_twice hordered)
      have hsublist := htimes.append (List.Sublist.refl ([now] ++ later))
      rw [htimeline, List.append_assoc]
      rw [List.append_assoc] at hsublist
      exact htwice.sublist hsublist
  · rw [if_neg hpost]
    exact .of_eq (timeline_put_of_ne h' (Ne.symm hpost))

/-- A post that was changed keeps when it was made. -/
theorem Stamped.rewrite {now : Instant} (hget : b.get? id = some h)
    (hcreated : h'.created = h.created) (hupdated : h'.updated = now)
    (hmoments : h'.moments.Sublist (h.moments ++ [now])) :
    Stamped post b (b.put id h') (if id = post then some now else none).toList := by
  apply Stamped.write hupdated
  have hrest : (h.moments ++ [now]).Sublist (h.moments ++ ([h.updated] ++ [now, now])) :=
    (List.Sublist.refl _).append (by simp)
  rw [timeline_of_get? hget, History.timeline, hcreated, List.cons_append, List.cons_append,
    List.append_assoc]
  exact (hmoments.trans hrest).cons_cons _

end Blog

/-! ## Operations -/

/-- The reading of the clock that an operation leaves on a post as the time of its last change, by
how it was answered and how many identifiers it took. An edit that takes none changes a draft, and
the time of the post stays what it was. -/
def Operation.stamp? (post : Uuid) (now : Instant) (taken : Nat) :
    Operation → Except Error Reply → Option Instant
  | .createPost _, .ok (.post r) => if r.post = post then some now else none
  | .updatePost id _, .ok _ => if taken = 0 then none else if id = post then some now else none
  | .publishPost id, .ok _ | .deleteDraft id, .ok _ => if id = post then some now else none
  | _, _ => none

theorem Operation.stamp?_of_spares {op : Operation} (h : op.changesPosts = false) (post : Uuid)
    (now : Instant) (taken : Nat) (answer : Except Error Reply) :
    op.stamp? post now taken answer = none := by
  cases op with
  | createPost r | updatePost id r | publishPost id | deleteDraft id => cases h
  | getPost id | getVersion id | createCategory r | updateCategory id r | getCategory id
  | attach r => rfl

theorem Operation.stamp?_error (op : Operation) (post : Uuid) (now : Instant) (taken : Nat)
    (e : Error) : op.stamp? post now taken (.error e) = none := by
  cases op <;> rfl

section

variable {t : Tables} {b : Blog} (hr : Represents t b) {sanitizer : Sanitizer} {now : Instant}
  {fresh : Nat → Uuid} {id : Uuid} {r : UpdatePost} {reply : Reply}

theorem effect_update_of_ok
    (hok : ((Operation.updatePost id r).effect sanitizer now fresh t).answer = .ok reply) :
    ((Operation.updatePost id r).effect sanitizer now fresh t).taken =
      ((Posts.updateIn id (cleanOption sanitizer r.title) (cleanOption sanitizer r.content)
        now).eval now fresh ⟨t, 0, []⟩).2.taken := by
  unfold Operation.effect Operation.plan at hok ⊢
  dsimp only at hok ⊢
  split at hok
  · cases hok
  · rename_i hgiven
    rw [if_neg hgiven]
    simp only [Plan.effect, Task.eval_map]
    generalize (Posts.updateIn id _ _ now).eval now fresh ⟨t, 0, []⟩ = meant
    obtain ⟨_ | v, ws⟩ := meant <;> rfl

include hr

theorem taken_of_draft {h : History} {d : Draft} (hget : b.get? id = some h)
    (hdraft : h.draft = some d)
    (hok : ((Operation.updatePost id r).effect sanitizer now fresh t).answer = .ok reply) :
    ((Operation.updatePost id r).effect sanitizer now fresh t).taken = 0 := by
  rw [effect_update_of_ok hok, eval_updateIn_of_draft hr id hget hdraft]

theorem taken_of_last {h : History} {p : Publication} (hget : b.get? id = some h)
    (hdraft : h.draft = none) (hlast : h.publications.getLast? = some p)
    (hok : ((Operation.updatePost id r).effect sanitizer now fresh t).answer = .ok reply) :
    ((Operation.updatePost id r).effect sanitizer now fresh t).taken = 1 := by
  rw [effect_update_of_ok hok, eval_updateIn_of_last hr id hget hdraft hlast]
  split <;> rfl

/-- An operation that no fault strikes leaves its reading on the post that it changes. -/
theorem effect_stamped (sanitizer : Sanitizer) (now : Instant) (fresh : Nat → Uuid) (op : Operation)
    (post : Uuid) :
    let effect := op.effect sanitizer now fresh t
    ∃ b', Represents effect.tables b' ∧
      Blog.Stamped post b b' (op.stamp? post now effect.taken effect.answer).toList := by
  intro effect
  obtain ⟨answer?, b', hstepped, hanswers, hr'⟩ := effect_stepped hr sanitizer now fresh op
  refine ⟨b', hr', ?_⟩
  cases hstepped with
  | spare hspares =>
    rw [Operation.stamp?_of_spares hspares]
    exact .of_eq rfl
  | refused =>
    have hanswer : effect.answer = _ := hanswers _ rfl
    rw [hanswer, Operation.stamp?_error]
    exact .of_eq rfl
  | @start r d hd hgiven hget hunused =>
    have hanswer : effect.answer = _ := hanswers _ rfl
    rw [hanswer]
    subst hd
    exact .write rfl (List.sublist_append_right _ _)
  | @amend id r h d d' hget hdraft hd' =>
    have hanswer : effect.answer = _ := hanswers _ rfl
    have htaken : effect.taken = 0 := taken_of_draft hr hget hdraft hanswer
    rw [hanswer, htaken, Operation.stamp?, if_pos rfl]
    -- the texts of the draft change, its time does not
    apply Blog.Stamped.of_eq
    by_cases hpost : post = id
    · subst hpost
      rw [Blog.timeline_put_self, Blog.timeline_of_get? hget]
      subst hd'
      simp [History.timeline, History.moments, hdraft]
    · exact Blog.timeline_put_of_ne _ hpost
  | @stack id r h p d hget hdraft hlast hd hunused =>
    have hanswer : effect.answer = _ := hanswers _ rfl
    have htaken : effect.taken = 1 := taken_of_last hr hget hdraft hlast hanswer
    rw [hanswer, htaken, Operation.stamp?, if_neg Nat.one_ne_zero]
    refine .rewrite hget rfl rfl ?_
    subst hd
    simp [History.moments, hdraft]
  | @publish id h d hget hdraft =>
    have hanswer : effect.answer = _ := hanswers _ rfl
    rw [hanswer]
    refine .rewrite hget rfl rfl ?_
    simp [History.moments, hdraft, Draft.publish]
  | @drop id h d hget hdraft =>
    have hanswer : effect.answer = _ := hanswers _ rfl
    rw [hanswer]
    refine .rewrite hget rfl rfl ?_
    -- the time of the draft goes with it
    rw [History.moments_of_draft hdraft, List.append_assoc]
    exact List.sublist_append_left _ _

end

/-! ## Rows -/

/-- The times of a post and of its versions are in the order in which the versions are numbered. -/
structure Tables.Chronological (t : Tables) (p : Post) : Prop where
  post : p.created ≤ p.updated
  version : ∀ v ∈ t.versions.rows, v.post = p.id →
    ∀ x ∈ v.moments, p.created ≤ x ∧ v.created ≤ x ∧ x ≤ p.updated
  number : ∀ v ∈ t.versions.rows, ∀ w ∈ t.versions.rows, v.post = p.id → w.post = p.id →
    v.number < w.number → ∀ x ∈ v.moments, ∀ y ∈ w.moments, x ≤ y

/-- What holds of the versions of a post in their order holds by their numbers. -/
theorem Blog.of_number_lt {b : Blog} {id : Uuid} {P : Version → Version → Prop} {v w : Version}
    (hP : (b.versionsOf id).Pairwise P) (hv : v ∈ b.versionsOf id) (hw : w ∈ b.versionsOf id)
    (hlt : v.number < w.number) : P v w := by
  obtain ⟨i, hi, rfl⟩ := List.mem_iff_getElem.mp hv
  obtain ⟨j, hj, rfl⟩ := List.mem_iff_getElem.mp hw
  have hnumbers := List.pairwise_iff_getElem.mp (b.pairwise_number_versionsOf id)
  rcases Nat.lt_trichotomy i j with hij | rfl | hji
  · exact List.pairwise_iff_getElem.mp hP i j hi hj hij
  · exact absurd hlt (Int.lt_irrefl _)
  · exact absurd hlt (Int.not_lt.mpr (Int.le_of_lt (hnumbers j i hj hi hji)))

namespace Represents

variable {t : Tables} {b : Blog} (hr : Represents t b) {id : Uuid}

include hr

/-- The timeline of a post ends with its last change. -/
theorem updated_eq (id : Uuid) :
    (t.posts.get? id).map (·.updated) = (b.timeline id).getLast? := by
  rw [hr.posts]
  cases hget : b.get? id with
  | none =>
    rw [Blog.timeline, hget]
    rfl
  | some h =>
    rw [Blog.timeline_of_get? hget, History.timeline, List.getLast?_concat]
    rfl

theorem chronological {p : Post} (hp : t.posts.get? id = some p)
    (hordered : (b.timeline id).Pairwise (· ≤ ·)) : t.Chronological p := by
  rw [hr.posts] at hp
  obtain ⟨h, hget, rfl⟩ := Option.map_eq_some_iff.mp hp
  rw [Blog.timeline_of_get? hget, History.timeline, List.cons_append, List.pairwise_cons,
    List.pairwise_append, h.moments_eq id, ← Blog.versionsOf_of_get? hget] at hordered
  obtain ⟨hcreated, hmoments, -, hupdated⟩ := hordered
  obtain ⟨hwithin, hacross⟩ := List.pairwise_flatMap.mp hmoments
  have hmem : ∀ v ∈ t.versions.rows, v.post = id → v ∈ b.versionsOf id := by
    intro v hv hpost
    exact hpost ▸ hr.mem_rows.mp hv
  refine ⟨hcreated h.updated (List.mem_append_right _ List.mem_cons_self),
    fun v hv hpost x hx => ?_, fun v hv w hw hpost hpost' hlt => ?_⟩
  · have hv' := hmem v hv hpost
    have hx' := List.mem_flatMap.mpr ⟨v, hv', hx⟩
    refine ⟨hcreated x (List.mem_append_left _ hx'), ?_, hupdated x hx' _ List.mem_cons_self⟩
    rcases List.mem_cons.mp hx with rfl | hx
    · exact Instant.le_refl _
    · exact (List.pairwise_cons.mp (hwithin v hv')).1 x hx
  · exact Blog.of_number_lt hacross (hmem v hv hpost) (hmem w hw hpost') hlt

end Represents

end Weblog
