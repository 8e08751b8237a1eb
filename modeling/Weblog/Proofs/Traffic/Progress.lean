import Weblog.Proofs.Traffic.Invariant

/-!
# Requests that nobody keeps waiting

A request waits for nothing but the store. As long as no other request holds it, each step leads on,
and after enough of them the request is answered (`Traffic.Inv.finishes`).
-/

namespace Weblog.Traffic

variable {sanitizer : Sanitizer} {clock : Nat → Instant} {source : Nat → Uuid} {σ : Traffic}
  {t : Tables} {i : Nat} {r : Request}

/-- After some steps the request is answered. -/
def Finishes (clock : Nat → Instant) (source : Nat → Uuid) (σ : Traffic) (i : Nat) : Prop :=
  ∃ n r, (σ.follow clock source (List.replicate n (.advance i))).requests[i]? = some r ∧
    r.answered?.isSome = true

theorem Finishes.of_move (h : Finishes clock source (σ.move clock source (.advance i)) i) :
    Finishes clock source σ i := by
  obtain ⟨n, r, hr, hanswered⟩ := h
  exact ⟨n + 1, r, hr, hanswered⟩

theorem move_advance {x : Script (Except Error Reply)} (hr : σ.requests[i]? = some r)
    (hrest : r.rest = some x) :
    σ.move clock source (.advance i) = σ.step clock source i r x := by
  simp only [move, hr, hrest]

/-- What the request asks of the store is answered, and no other request holds it then. -/
theorem Inv.answers (h : σ.Inv sanitizer t) {a : Access}
    {next : Except Error a.Answer → Script (Except Error Reply)} (hr : σ.requests[i]? = some r)
    (hrest : r.rest = some (.ask a next))
    (hmine : σ.store.isLocked = true → σ.order.getLast? = some i) :
    ∃ answer store', σ.store.perform a = .ok (answer, store') ∧
      (store'.isLocked = true →
        (if a = .begin then σ.order ++ [i] else σ.order).getLast? = some i) := by
  have hfree : i ∉ σ.order → σ.store = ⟨t, none⟩ := by
    intro hnew
    apply h.free
    rw [Bool.eq_false_iff]
    exact fun hlocked => hnew (List.mem_of_getLast? (hmine hlocked))
  cases h.standing i r hr with
  | waiting x hrest' horderly hnew hreaches =>
    cases hrest.symm.trans hrest'
    rw [hfree hnew]
    cases a with
    | commit | rollback | call c | query q => exact horderly.elim
    | begin => exact ⟨_, _, rfl, fun _ => List.getLast?_concat⟩
  | looking x hrest' horderly hnew hlooks =>
    cases hrest.symm.trans hrest'
    rw [hfree hnew]
    cases a with
    | begin | commit | rollback | call c => exact horderly.elim
    | query q => exact ⟨_, _, rfl, fun hlocked => by cases hlocked⟩
  | holding x t₁ hrest' horderly hholds hworking hreaches =>
    cases hrest.symm.trans hrest'
    have hlast := hholds.2
    obtain ⟨record, hopen, -⟩ := hworking
    rw [hopen]
    cases a with
    | begin | query q => exact horderly.elim
    | commit | rollback => exact ⟨_, _, rfl, fun hlocked => by cases hlocked⟩
    | call c => exact ⟨_, _, rfl, fun _ => hlast⟩
  | answered answer hrest' hfree hold => cases hrest.symm.trans hrest'
  | gone hrest' hfree => cases hrest.symm.trans hrest'

theorem Inv.finishes_of_reported (y : Script (Except Error Reply)) (h : σ.Inv sanitizer t)
    (hr : σ.requests[i]? = some r) (hrest : r.rest = some y.reported)
    (hmine : σ.store.isLocked = true → σ.order.getLast? = some i) :
    Finishes clock source σ i := by
  -- after each step the request is alone with the store still, and less is left of it
  induction y generalizing σ t r with
  | done answer =>
    refine ⟨0, r, hr, ?_⟩
    rw [Request.answered?, hrest]
    rfl
  | report e rest ih => exact ih h hr hrest hmine
  | readClock next ih =>
    have hi := (List.getElem?_eq_some_iff.mp hr).1
    apply Finishes.of_move
    obtain ⟨t', h'⟩ := h.move clock source (.advance i)
    rw [move_advance hr hrest] at h' ⊢
    exact ih _ h' (List.getElem?_set_self hi) rfl hmine
  | takeId next ih =>
    have hi := (List.getElem?_eq_some_iff.mp hr).1
    apply Finishes.of_move
    obtain ⟨t', h'⟩ := h.move clock source (.advance i)
    rw [move_advance hr hrest] at h' ⊢
    exact ih _ h' (List.getElem?_set_self hi) rfl hmine
  | ask a next ih =>
    have hi := (List.getElem?_eq_some_iff.mp hr).1
    apply Finishes.of_move
    obtain ⟨t', h'⟩ := h.move clock source (.advance i)
    obtain ⟨answer, store', hperform, hmine'⟩ := h.answers hr hrest hmine
    rw [move_advance hr hrest] at h' ⊢
    simp only [Script.reported, step, hperform] at h' ⊢
    exact ih answer h' (List.getElem?_set_self hi) rfl hmine'

/-- **Progress.** A request that was not given up and that no other request keeps from the store is
answered when it goes on for long enough. -/
theorem Inv.finishes (h : σ.Inv sanitizer t) {x : Script (Except Error Reply)}
    (hr : σ.requests[i]? = some r) (hrest : r.rest = some x)
    (hmine : σ.store.isLocked = true → σ.order.getLast? = some i) :
    Finishes clock source σ i := by
  cases x with
  | report e rest =>
    have hi := (List.getElem?_eq_some_iff.mp hr).1
    apply Finishes.of_move
    obtain ⟨t', h'⟩ := h.move clock source (.advance i)
    rw [move_advance hr hrest] at h' ⊢
    exact h'.finishes_of_reported rest (List.getElem?_set_self hi) rfl hmine
  | done answer => exact h.finishes_of_reported (.done answer) hr hrest hmine
  | readClock next => exact h.finishes_of_reported (.readClock next) hr hrest hmine
  | takeId next => exact h.finishes_of_reported (.takeId next) hr hrest hmine
  | ask a next => exact h.finishes_of_reported (.ask a next) hr hrest hmine

end Weblog.Traffic
