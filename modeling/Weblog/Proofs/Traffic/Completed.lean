import Weblog.Proofs.Traffic.Serializable

/-!
# What was answered stays answered

The requests that obtained the store and were answered make a list that only grows, by at most one
request at each move (`Traffic.Inv.completed_move`).

* `Traffic.Inv.serial_follow`: the requests that it grew by, served one after another, lead from
  what was committed before to what is committed now.
* `Traffic.Inv.reached`: every list between two of its states was its state in between.
-/

namespace Weblog

/-- Requests that are served one after another leave the same tables each time. -/
theorem Serial.unique {sanitizer : Sanitizer} {t t₁ t₂ : Tables} {done : List Answered}
    (h₁ : Serial sanitizer t done t₁) (h₂ : Serial sanitizer t done t₂) : t₁ = t₂ := by
  induction h₁ with
  | nil =>
    cases h₂
    rfl
  | cons _ _ ih =>
    cases h₂ with
    | cons _ hrest => exact ih hrest

namespace Traffic

variable {sanitizer : Sanitizer} {σ : Traffic} {t : Tables} {i : Nat} {r : Request}

theorem follow_append (clock : Nat → Instant) (source : Nat → Uuid) (σ : Traffic)
    (moves later : List Move) :
    σ.follow clock source (moves ++ later) =
      (σ.follow clock source moves).follow clock source later :=
  List.foldl_append

/-- A request that goes on can only be answered after all others. -/
theorem Inv.completed_set (h : σ.Inv sanitizer t) (hr : σ.requests[i]? = some r)
    (hover : r.isOver = false) (r' : Request) :
    ∃ d? : Option Answered,
      answersAt (σ.requests.set i r') σ.order = σ.completed ++ d?.toList := by
  by_cases hold : i ∈ σ.order
  · -- it holds the store, so it was the last to obtain it
    obtain ⟨x, t₁, hrest, horderly, hholds, -⟩ := (h.standing i r hr).inside hold (.inl hover)
    obtain ⟨front, hfront⟩ := List.getLast?_eq_some_iff.mp hholds.2
    have hnodup := h.nodup
    rw [hfront] at hnodup
    have hnew : i ∉ front := fun hmem =>
      (List.nodup_append.mp hnodup).2.2 i hmem i List.mem_cons_self rfl
    have hi := (List.getElem?_eq_some_iff.mp hr).1
    refine ⟨r'.answered?, ?_⟩
    change _ = answersAt σ.requests σ.order ++ _
    rw [hfront, answersAt_concat hr, answersAt_concat (List.getElem?_set_self hi),
      answersAt_set_of_notMem r' hnew, answered?_of_inside hrest horderly, Option.toList_none,
      List.append_nil]
  · exact ⟨none, by rw [answersAt_set_of_notMem r' hold, Option.toList_none, List.append_nil]; rfl⟩

/-- Who still has to obtain the store has not obtained it. -/
theorem Inv.notMem_of_begin (h : σ.Inv sanitizer t) (hr : σ.requests[i]? = some r)
    {next : Except Error Unit → Script (Except Error Reply)}
    (hrest : r.rest = some (.ask .begin next)) : i ∉ σ.order := by
  cases h.standing i r hr with
  | waiting x hrest' horderly hnew hreaches => exact hnew
  | looking x hrest' horderly hnew hlooks => exact hnew
  | holding x t₁ hrest' horderly hholds hworking hreaches =>
    cases hrest.symm.trans hrest'
    exact horderly.elim
  | answered answer hrest' hfree hold => cases hrest.symm.trans hrest'
  | gone hrest' hfree => cases hrest.symm.trans hrest'

theorem Inv.completed_step (clock : Nat → Instant) (source : Nat → Uuid) (h : σ.Inv sanitizer t)
    (hr : σ.requests[i]? = some r) {x : Script (Except Error Reply)} (hrest : r.rest = some x) :
    ∃ d? : Option Answered,
      (σ.step clock source i r x).completed = σ.completed ++ d?.toList := by
  cases x with
  | done answer => exact ⟨none, (List.append_nil _).symm⟩
  | readClock next => exact h.completed_set hr (by rw [Request.isOver, hrest]) _
  | takeId next => exact h.completed_set hr (by rw [Request.isOver, hrest]) _
  | report e rest => exact h.completed_set hr (by rw [Request.isOver, hrest]) _
  | ask a next =>
    simp only [step]
    cases hperform : σ.store.perform a with
    | error refusal => exact ⟨none, (List.append_nil _).symm⟩
    | ok answered =>
      obtain ⟨answer, store⟩ := answered
      let r' : Request := { r with rest := some (next answer).reported }
      by_cases hbegin : a = .begin
      · subst hbegin
        have hi := (List.getElem?_eq_some_iff.mp hr).1
        have hnew := h.notMem_of_begin hr hrest
        refine ⟨r'.answered?, ?_⟩
        change answersAt (σ.requests.set i r') (σ.order ++ [i]) = _
        rw [answersAt_concat (List.getElem?_set_self hi), answersAt_set_of_notMem r' hnew]
        rfl
      · have hset := h.completed_set hr (by rw [Request.isOver, hrest]) r'
        simp only [if_neg hbegin]
        exact hset

theorem Inv.completed_move (clock : Nat → Instant) (source : Nat → Uuid) (h : σ.Inv sanitizer t)
    (m : Move) :
    ∃ d? : Option Answered, (σ.move clock source m).completed = σ.completed ++ d?.toList := by
  obtain hmove | ⟨i, r, x, hr, hrest, hmove⟩ | ⟨i, r, hr, hover, hmove⟩ :=
    move_cases clock source σ m
  · exact ⟨none, by rw [hmove, Option.toList_none, List.append_nil]⟩
  · rw [hmove]
    exact h.completed_step clock source hr hrest
  · rw [hmove]
    exact h.completed_set hr hover _

theorem Inv.completed_follow (clock : Nat → Instant) (source : Nat → Uuid) (h : σ.Inv sanitizer t)
    (moves : List Move) : σ.completed <+: (σ.follow clock source moves).completed := by
  induction moves generalizing σ t with
  | nil => exact List.prefix_refl _
  | cons m rest ih =>
    obtain ⟨t₁, h₁⟩ := h.move clock source m
    obtain ⟨d?, hmove⟩ := h.completed_move clock source m
    have hbegins : σ.completed <+: (σ.move clock source m).completed := ⟨_, hmove.symm⟩
    exact hbegins.trans (ih h₁)

/-- The requests that were answered meanwhile lead from what was committed to what is. -/
theorem Inv.serial_follow {clock : Nat → Instant} {source : Nat → Uuid} {t' : Tables}
    {moves : List Move} {done : List Answered} (h : σ.Inv sanitizer t)
    (h' : (σ.follow clock source moves).Inv sanitizer t')
    (hdone : (σ.follow clock source moves).completed = σ.completed ++ done) :
    Serial sanitizer t done t' := by
  have hserial := h'.serial
  rw [hdone] at hserial
  obtain ⟨t₁, hbefore, hmeanwhile⟩ := hserial.split
  exact h.serial.unique hbefore ▸ hmeanwhile

/-- What was answered grows one by one, so it passes through every list on its way. -/
theorem Inv.reached (clock : Nat → Instant) (source : Nat → Uuid) (h : σ.Inv sanitizer t)
    (moves : List Move) {done : List Answered} (hbegins : σ.completed <+: done)
    (hends : done <+: (σ.follow clock source moves).completed) :
    ∃ part, part <+: moves ∧ (σ.follow clock source part).completed = done := by
  induction moves generalizing σ t with
  | nil => exact ⟨[], List.prefix_refl _, hbegins.eq_of_length_le hends.length_le⟩
  | cons m rest ih =>
    obtain ⟨t₁, h₁⟩ := h.move clock source m
    obtain ⟨d?, hmove⟩ := h.completed_move clock source m
    have hlater := h₁.completed_follow clock source rest
    by_cases hlength : (σ.move clock source m).completed.length ≤ done.length
    · obtain ⟨part, hpart, hreached⟩ :=
        ih h₁ (List.prefix_of_prefix_length_le hlater hends hlength) hends
      exact ⟨m :: part, List.prefix_cons_inj m |>.mpr hpart, hreached⟩
    · -- it is shorter than what one move makes of the list at the start
      refine ⟨[], List.nil_prefix, hbegins.eq_of_length_le ?_⟩
      rw [hmove, List.length_append] at hlength
      have hone : d?.toList.length ≤ 1 := by cases d? <;> simp
      omega

end Traffic

end Weblog
