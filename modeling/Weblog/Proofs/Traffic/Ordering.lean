import Weblog.Proofs.Blog.Timeline
import Weblog.Proofs.Traffic.Completed

/-!
# Readings of the clock and the order of changes

A request reads the clock before it obtains the store, so the readings need not be in the order in
which the requests obtained it. A post is dated by the request that changed it last, whatever that
one read. As long as the readings that were put on a post are in the order in which they were put
there, its versions were started in the order of their numbers, and its time never goes back
(`versions_in_order_of_readings`). A clock that never goes back is not enough for that: a request
that waits long can be overtaken (`reading_overtaken`).
-/

namespace Weblog

/-! ## Stamps -/

/-- The reading that a request put on a post as the time of its last change. -/
def Answered.stamp? (post : Uuid) (d : Answered) : Option Instant :=
  d.op.stamp? post (d.times.getD 0 .epoch) d.ids.length d.answer

theorem Answered.Fits.stamped {sanitizer : Sanitizer} {d : Answered} {t : Tables} {b : Blog}
    (h : d.Fits sanitizer t) (hr : Represents t b) (post : Uuid) :
    ∃ b', Represents (d.effect sanitizer t).tables b' ∧
      Blog.Stamped post b b' (d.stamp? post).toList := by
  obtain ⟨b', hr', hstamped⟩ := effect_stamped hr sanitizer (d.times.getD 0 .epoch)
    (fun n => d.ids.getD n (.ofNat 0)) d.op post
  have hanswer : (d.op.effect sanitizer (d.times.getD 0 .epoch) _ t).answer = d.answer := h.answer
  have hids : (d.op.effect sanitizer (d.times.getD 0 .epoch) _ t).taken = d.ids.length := h.ids
  rw [hanswer, hids] at hstamped
  exact ⟨b', hr', hstamped⟩

theorem Serial.stamped {sanitizer : Sanitizer} {t t' : Tables} {b : Blog} {done : List Answered}
    (h : Serial sanitizer t done t') (hr : Represents t b) (post : Uuid) :
    ∃ b', Represents t' b' ∧ Blog.Stamped post b b' (done.filterMap (·.stamp? post)) := by
  induction h generalizing b with
  | nil => exact ⟨b, hr, .of_eq rfl⟩
  | @cons t t' d rest hfits hrest ih =>
    obtain ⟨b₁, hr₁, hstamped⟩ := hfits.stamped hr post
    obtain ⟨b', hr', hlater⟩ := ih hr₁
    refine ⟨b', hr', ?_⟩
    have hstamps : (d :: rest).filterMap (·.stamp? post) =
        (d.stamp? post).toList ++ rest.filterMap (·.stamp? post) := by
      cases hd : d.stamp? post with
      | none => exact List.filterMap_cons_none hd
      | some now => exact List.filterMap_cons_some hd
    rw [hstamps]
    exact hstamped.trans hlater

namespace Traffic

variable {sanitizer : Sanitizer} {σ : Traffic} {t : Tables}

/-- The time of a post is what was put on it last. -/
theorem Inv.stamped (h : σ.Inv sanitizer t) (id : Uuid) :
    ∃ b, Represents σ.store.committed b ∧
      (σ.store.committed.posts.get? id).map (·.updated) =
        (σ.completed.filterMap (·.stamp? id)).getLast? ∧
      ((σ.completed.filterMap (·.stamp? id)).Pairwise (· ≤ ·) →
        (b.timeline id).Pairwise (· ≤ ·)) := by
  obtain ⟨b, hr, hstamped⟩ := h.serial.stamped represents_empty id
  rw [h.committed]
  refine ⟨b, hr, (hr.updated_eq id).trans hstamped.last, fun hordered => ?_⟩
  have htimeline := hstamped.ordered []
  rw [List.append_nil, List.append_nil] at htimeline
  exact htimeline hordered

end Traffic

/-- What comes last in a list in order comes after what came last in its beginning. -/
theorem last_le_last {stamps stamps' : List Instant} {x : Instant} (hbegins : stamps <+: stamps')
    (hordered : stamps'.Pairwise (· ≤ ·)) (hx : stamps.getLast? = some x) :
    ∃ y, stamps'.getLast? = some y ∧ x ≤ y := by
  obtain ⟨later, rfl⟩ := hbegins
  rw [List.getLast?_append, hx]
  cases hy : later.getLast? with
  | none => exact ⟨x, rfl, Instant.le_refl x⟩
  | some y =>
    refine ⟨y, rfl, ?_⟩
    exact (List.pairwise_append.mp hordered).2.2 x (List.mem_of_getLast? hx) y
      (List.mem_of_getLast? hy)

/-- **Versions in the order of readings.** However requests interleave, a post is dated by the
request that changed it last. If the readings of those that changed it never go back in the order in
which they obtained the store, then the times of the post and its versions are in the order of the
numbers of the versions, and nothing that is committed ever moves the time of the post back. -/
theorem versions_in_order_of_readings (clock : Nat → Instant) (source : Nat → Uuid)
    (sanitizer : Sanitizer) (ops : List Operation) (moves later : List Move) (id : Uuid) :
    let σ := (Traffic.start sanitizer ops).follow clock source moves
    let σ' := σ.follow clock source later
    let stamps := σ'.completed.filterMap (·.stamp? id)
    (σ'.store.committed.posts.get? id).map (·.updated) = stamps.getLast? ∧
    (stamps.Pairwise (· ≤ ·) →
      (∀ p, σ'.store.committed.posts.get? id = some p → σ'.store.committed.Chronological p) ∧
      ∀ p, σ.store.committed.posts.get? id = some p →
        ∃ p', σ'.store.committed.posts.get? id = some p' ∧ p.updated ≤ p'.updated) := by
  obtain ⟨t, hinv⟩ := (Traffic.inv_start sanitizer ops).follow clock source moves
  intro σ σ' stamps
  obtain ⟨t', hinv'⟩ : ∃ t', σ'.Inv sanitizer t' := hinv.follow clock source later
  obtain ⟨-, -, hupdated, -⟩ := hinv.stamped id
  obtain ⟨b', hr', hupdated', hordered⟩ := hinv'.stamped id
  refine ⟨hupdated', fun hstamps => ⟨fun p hp => hr'.chronological hp (hordered hstamps),
    fun p hp => ?_⟩⟩
  rw [hp, Option.map_some] at hupdated
  have hbegins := (hinv.completed_follow clock source later).filterMap (·.stamp? id)
  obtain ⟨y, hlast, hle⟩ := last_le_last hbegins hstamps hupdated.symm
  obtain ⟨p', hp', rfl⟩ := Option.map_eq_some_iff.mp (hupdated'.trans hlast)
  exact ⟨p', hp', hle⟩

/-! ## Rivals -/

/-- A clock that ticks once for each reading, in the first minute of 1970. -/
def ticks (n : Nat) : Instant :=
  ⟨min n 59, 0, by unfold Instant.Valid Instant.firstSecond Instant.lastSecond; omega⟩

theorem ticks_mono {m n : Nat} (h : m ≤ n) : ticks m ≤ ticks n := by
  have hle : (ticks m).seconds ≤ (ticks n).seconds := by
    change min (m : Int) 59 ≤ min (n : Int) 59
    omega
  rcases Int.lt_or_eq_of_le hle with hlt | heq
  · exact .inl hlt
  · exact .inr ⟨heq, Nat.le_refl _⟩

/-- Requests that are served one after another, each at its turn. -/
def turns (places : List Nat) : List Move :=
  places.flatMap fun i => List.replicate 10 (.advance i)

/-- Two edits of one post, with a publication after each. -/
def rivals : List Operation :=
  [.createPost ⟨"title", "text"⟩, .publishPost (.ofNat 0), .updatePost (.ofNat 0) ⟨none, some "one"⟩,
    .updatePost (.ofNat 0) ⟨none, some "two"⟩, .publishPost (.ofNat 0)]

theorem versions_in_order_of_rivals :
    let σ := (Traffic.start .identity rivals).follow ticks .ofNat (turns [0, 1, 2, 4])
    let σ' := σ.follow ticks .ofNat (turns [3])
    let stamps := σ'.completed.filterMap (·.stamp? (.ofNat 0))
    (stamps = [ticks 0, ticks 1, ticks 2, ticks 3, ticks 4] ∧ stamps.Pairwise (· ≤ ·)) ∧
    ∃ p, σ'.store.committed.posts.get? (.ofNat 0) = some p ∧ p.updated = ticks 4 ∧
      σ'.store.committed.Chronological p := by
  intro σ σ' stamps
  have hstamps : stamps = [ticks 0, ticks 1, ticks 2, ticks 3, ticks 4] := by decide +kernel
  have hordered : stamps.Pairwise (· ≤ ·) := by
    rw [hstamps]
    decide
  obtain ⟨hupdated, hrest⟩ := versions_in_order_of_readings ticks .ofNat .identity rivals
    (turns [0, 1, 2, 4]) (turns [3]) (.ofNat 0)
  obtain ⟨hchronological, -⟩ := hrest hordered
  have hlast : stamps.getLast? = some (ticks 4) := by
    rw [hstamps]
    rfl
  obtain ⟨p, hp, hpupdated⟩ := Option.map_eq_some_iff.mp (hupdated.trans hlast)
  exact ⟨⟨hstamps, hordered⟩, p, hp, hpupdated, hchronological p hp⟩

/-- The first edit reads the clock and has to wait until the second was published. Its draft, the
latest version, is then dated before the version below it, and the time of the post goes back. -/
theorem reading_overtaken :
    let σ := (Traffic.start .identity rivals).follow ticks .ofNat
      (turns [0, 1] ++ .advance 2 :: turns [3, 4])
    let σ' := σ.follow ticks .ofNat (turns [2])
    (∀ m n, m ≤ n → ticks m ≤ ticks n) ∧ (∀ r ∈ σ'.requests, r.isOver = true) ∧
    (∃ v w, σ'.store.committed.versions.get? (.ofNat 2) = some v ∧
      σ'.store.committed.versions.get? (.ofNat 3) = some w ∧ v.post = w.post ∧
      v.number < w.number ∧ ¬ v.created ≤ w.created) ∧
    ∃ p p', σ.store.committed.posts.get? (.ofNat 0) = some p ∧
      σ'.store.committed.posts.get? (.ofNat 0) = some p' ∧ ¬ p.updated ≤ p'.updated := by
  intro σ σ'
  let v : Version := { id := .ofNat 2, post := .ofNat 0, number := 2, title := "title"
                       content := "two", published := some (ticks 4), created := ticks 3 }
  let w : Version := { id := .ofNat 3, post := .ofNat 0, number := 3, title := "title"
                       content := "one", published := none, created := ticks 2 }
  let p : Post := { id := .ofNat 0, current := some v.id, created := ticks 0, updated := ticks 4 }
  let p' : Post := { p with current := some w.id, updated := ticks 2 }
  have hover : ∀ r ∈ σ'.requests, r.isOver = true := by decide +kernel
  have hv : σ'.store.committed.versions.get? (.ofNat 2) = some v := by decide +kernel
  have hw : σ'.store.committed.versions.get? (.ofNat 3) = some w := by decide +kernel
  have hp : σ.store.committed.posts.get? (.ofNat 0) = some p := by decide +kernel
  have hp' : σ'.store.committed.posts.get? (.ofNat 0) = some p' := by decide +kernel
  refine ⟨fun m n => ticks_mono, hover, ⟨v, w, hv, hw, rfl, ?_, ?_⟩, p, p', hp, hp', ?_⟩
  · decide
  · decide
  · decide

end Weblog
