import Weblog.Proofs.Traffic.Drafts
import Weblog.Proofs.Traffic.Progress

/-!
# Requests are serializable

However the steps of requests interleave, and whichever of them are given up on the way, what is
answered and what is committed is what serving them one after another gives, in the order in which
they obtained the store (`requests_serializable`).
-/

namespace Weblog

theorem Request.rest_of_answered {r : Request} {d : Answered} (h : r.answered? = some d) :
    r.rest = some (.done d.answer) ∧ d = ⟨r.op, d.answer, r.times, r.ids⟩ := by
  unfold answered? at h
  split at h
  · rename_i answer hrest
    cases h
    exact ⟨hrest, rfl⟩
  · cases h

theorem Serial.represents {sanitizer : Sanitizer} {t t' : Tables} {b : Blog}
    {done : List Answered} (h : Serial sanitizer t done t') (hr : Represents t b) :
    ∃ b', Represents t' b' := by
  induction h generalizing b with
  | nil => exact ⟨b, hr⟩
  | cons hfits hrest ih =>
    obtain ⟨_, b₁, -, -, hr₁⟩ := hfits.stepped hr
    exact ih hr₁

namespace Traffic

variable {sanitizer : Sanitizer} {σ : Traffic} {t : Tables} {i : Nat} {r : Request} {d : Answered}

/-- As long as the store is locked, one request is in the middle of its transaction. -/
theorem Inv.inside (h : σ.Inv sanitizer t) (hlocked : σ.store.isLocked = true) :
    ∃ r ∈ σ.requests, ∃ x t', r.rest = some x ∧ x.Orderly .inside ∧
      Store.Working t σ.store t' := by
  obtain ⟨i, hlast, hi⟩ := h.held hlocked
  obtain ⟨x, t', hrest, horderly, -, hworking⟩ :=
    (h.standing i _ (List.getElem?_eq_getElem hi)).inside (List.mem_of_getLast? hlast)
      (.inr ⟨hlocked, hlast⟩)
  exact ⟨_, List.getElem_mem hi, x, t', hrest, horderly, hworking⟩

theorem Inv.committed (h : σ.Inv sanitizer t) : σ.store.committed = t := by
  cases hlocked : σ.store.isLocked with
  | false =>
    rw [h.free hlocked]
    rfl
  | true =>
    obtain ⟨_, _, _, _, _, _, hworking⟩ := h.inside hlocked
    exact congrArg Store.tables hworking.abandon

/-- Nobody holds the store when nothing is left to do. -/
theorem Inv.free_of_over (h : σ.Inv sanitizer t) (hover : ∀ r ∈ σ.requests, r.isOver = true) :
    σ.store = ⟨t, none⟩ := by
  apply h.free
  cases hlocked : σ.store.isLocked with
  | false => rfl
  | true =>
    obtain ⟨r, hr, x, -, hrest, horderly, -⟩ := h.inside hlocked
    have hover := hover r hr
    rw [Request.isOver, hrest] at hover
    cases x with
    | done answer => exact horderly.elim
    | readClock next | takeId next | report e rest | ask a next => cases hover

/-- A change that was answered without the store was refused, as it is whatever is stored. -/
theorem Inv.refused (h : σ.Inv sanitizer t) (hr : σ.requests[i]? = some r)
    (hd : r.answered? = some d) (hmutation : d.op.isMutation = true) (hnew : i ∉ σ.order) :
    (∃ e, d.answer = .error e) ∧
      ∀ t, d.Fits sanitizer t ∧ (d.effect sanitizer t).tables = t := by
  obtain ⟨hrest, hsame⟩ := Request.rest_of_answered hd
  cases h.standing i r hr with
  | waiting x hrest' horderly _ hreaches =>
    cases hrest.symm.trans hrest'
    refine ⟨horderly, fun t => ?_⟩
    rw [hsame]
    exact (hreaches ⟨t, none⟩).fits
  | looking x hrest' horderly _ hlooks =>
    rw [hsame] at hmutation
    rw [hlooks] at hmutation
    cases hmutation
  | holding x t₁ hrest' horderly hholds hworking hreaches =>
    rw [answered?_of_inside hrest' horderly] at hd
    cases hd
  | answered answer hrest' hfree hold => exact absurd hold hnew
  | gone hrest' hfree => cases hrest.symm.trans hrest'

end Traffic

/-- **Requests are serializable.** However requests interleave, step by step, and wherever they are
given up: those that obtained the store and were answered are answered the same when they are served
again, one after another in the order in which they obtained it, each with the reading of the clock
and the identifiers that it took; what is committed then is what is committed now; and it is the
same without those that failed. When nothing is left to do the store is free. A change that was
answered without the store was refused, and is so alone, whatever is stored. No draft is published
twice. Between two edits that start a draft on one published version a draft of the post was
deleted. And a request that nobody keeps from the store is answered in the end. -/
theorem requests_serializable (clock : Nat → Instant) (source : Nat → Uuid) (sanitizer : Sanitizer)
    (ops : List Operation) (moves : List Move) :
    let σ := (Traffic.start sanitizer ops).follow clock source moves
    let done := σ.completed
    (Answered.again sanitizer done).1 = done.map (fun d => .answered d.answer) ∧
    (Answered.again sanitizer done).2.store.tables = σ.store.committed ∧
    (Answered.again sanitizer (done.filter Answered.succeeded)).2.store.tables =
      σ.store.committed ∧
    ((∀ r ∈ σ.requests, r.isOver = true) →
      σ.store = (Answered.again sanitizer done).2.store) ∧
    (∀ (i : Nat) (r : Request) (d : Answered), σ.requests[i]? = some r → r.answered? = some d →
      d.op.isMutation = true → i ∉ σ.order → (∃ e, d.answer = .error e) ∧ ∀ t : Tables,
        let alone := d.op.perform (.serving d.times d.ids) sanitizer
          { World.initial with store := ⟨t, none⟩ }
        alone.1 = .answered d.answer ∧ alone.2.store = ⟨t, none⟩) ∧
    (done.filterMap Answered.publishes?).Nodup ∧
    (∀ (front middle back : List Answered) (d d' : Answered) (u : Version),
      done = front ++ d :: (middle ++ d' :: back) →
      d.StacksOn (Answered.again sanitizer front).2.store.tables u →
      d'.StacksOn (Answered.again sanitizer (front ++ d :: middle)).2.store.tables u →
      ∃ e ∈ middle, e.op = .deleteDraft u.post ∧ ∃ reply, e.answer = .ok reply) ∧
    (∀ (i : Nat) (r : Request) (x : Script (Except Error Reply)), σ.requests[i]? = some r →
      r.rest = some x → (σ.store.isLocked = true → σ.order.getLast? = some i) →
      Traffic.Finishes clock source σ i) := by
  obtain ⟨t, hinv⟩ := (Traffic.inv_start sanitizer ops).follow clock source moves
  intro σ done
  have hserial : Serial sanitizer .empty done t := hinv.serial
  have hcommitted : σ.store.committed = t := hinv.committed
  obtain ⟨hanswers, hstore⟩ := hserial.again_eq
  refine ⟨hanswers, ?_, ?_, fun hover => ?_, fun i r d hr hd hmutation hnew => ?_,
    hserial.published_once represents_empty, fun front middle back d d' u hdone hu hu' => ?_,
    fun i r x hr hrest hmine => hinv.finishes hr hrest hmine⟩
  · rw [hstore, hcommitted]
  · rw [hserial.succeeded.again_eq.2, hcommitted]
  · rw [hstore]
    exact hinv.free_of_over hover
  · obtain ⟨herror, halone⟩ := hinv.refused hr hd hmutation hnew
    refine ⟨herror, fun t => ?_⟩
    obtain ⟨hfits, htables⟩ := halone t
    obtain ⟨hanswer, hstore'⟩ := hfits.alone
    rw [htables] at hstore'
    exact ⟨hanswer, hstore'⟩
  · rw [hdone] at hserial
    obtain ⟨t₀, hfront, hrest⟩ := hserial.split
    obtain ⟨b₀, hr₀⟩ := hfront.represents represents_empty
    cases hrest with
    | cons hfits hrest =>
      obtain ⟨t₁, hmiddle, hback⟩ := hrest.split
      rw [hfront.again_eq.2] at hu
      rw [(hfront.append (.cons hfits hmiddle)).again_eq.2] at hu'
      exact Serial.deleted_between hr₀ hu hfits hmiddle hu'

end Weblog
