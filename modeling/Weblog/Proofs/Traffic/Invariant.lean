import Weblog.Proofs.Traffic.Serial

/-!
# Where requests stand

At any time at most one request holds the store, the one that obtained it last (`Holds`). It has come
to where it is by steps from the committed tables that nobody else took part in, and its undo record
leads back to these (`Standing.holding`). All others have done nothing to the tables, have ended, or
were given up. So what was answered so far is what serving the requests one after another answers
(`Traffic.Inv`), and every move keeps it so (`Traffic.Inv.move`).
-/

namespace Weblog

/-- The request at this place has the store for itself. -/
def Holds (store : Store) (order : List Nat) (i : Nat) : Prop :=
  store.isLocked = true ∧ order.getLast? = some i

/-- Where a request stands when certain tables are committed. -/
inductive Standing (sanitizer : Sanitizer) (t : Tables) (store : Store) (order : List Nat) (i : Nat)
    (r : Request) : Prop
  /-- It has not obtained the store. Whatever the store is, it would be as far alone. -/
  | waiting (x : Script (Except Error Reply)) (hrest : r.rest = some x)
    (horderly : x.Orderly .before) (hnew : i ∉ order)
    (hreaches : ∀ store, Script.Reaches r.times r.ids (r.op.task sanitizer).run store x store)
  | looking (x : Script (Except Error Reply)) (hrest : r.rest = some x)
    (horderly : x.Orderly .looking) (hnew : i ∉ order) (hlooks : r.op.isMutation = false)
  | holding (x : Script (Except Error Reply)) (t' : Tables) (hrest : r.rest = some x)
    (horderly : x.Orderly .inside) (hholds : Holds store order i)
    (hworking : Store.Working t store t')
    (hreaches : Script.Reaches r.times r.ids (r.op.task sanitizer).run ⟨t, none⟩ x store)
  | answered (answer : Except Error Reply) (hrest : r.rest = some (.done answer))
    (hfree : ¬ Holds store order i) (hold : i ∈ order)
  | gone (hrest : r.rest = none) (hfree : ¬ Holds store order i)

namespace Standing

variable {sanitizer : Sanitizer} {t t' : Tables} {store store' : Store} {order order' : List Nat}
  {i : Nat} {r : Request}

/-- Who does not hold the store does not care what becomes of it. -/
theorem frame (h : Standing sanitizer t store order i r) (hfree : ¬ Holds store order i)
    (hfree' : ¬ Holds store' order' i) (hmem : i ∈ order' ↔ i ∈ order) :
    Standing sanitizer t' store' order' i r := by
  cases h with
  | waiting x hrest horderly hnew hreaches =>
    exact .waiting x hrest horderly (fun h => hnew (hmem.mp h)) hreaches
  | looking x hrest horderly hnew hlooks =>
    exact .looking x hrest horderly (fun h => hnew (hmem.mp h)) hlooks
  | holding x t₁ hrest horderly hholds hworking hreaches => exact absurd hholds hfree
  | answered answer hrest _ hold => exact .answered answer hrest hfree' (hmem.mpr hold)
  | gone hrest _ => exact .gone hrest hfree'

/-- Who obtained the store and has something left to do, or holds it, is in the middle of its
transaction. -/
theorem inside (h : Standing sanitizer t store order i r) (hold : i ∈ order)
    (hbusy : r.isOver = false ∨ Holds store order i) :
    ∃ x t', r.rest = some x ∧ x.Orderly .inside ∧ Holds store order i ∧
      Store.Working t store t' := by
  cases h with
  | waiting x hrest horderly hnew hreaches => exact absurd hold hnew
  | looking x hrest horderly hnew hlooks => exact absurd hold hnew
  | holding x t' hrest horderly hholds hworking hreaches =>
    exact ⟨x, t', hrest, horderly, hholds, hworking⟩
  | answered answer hrest hfree _ =>
    rcases hbusy with hover | hholds
    · rw [Request.isOver, hrest] at hover
      cases hover
    · exact absurd hholds hfree
  | gone hrest hfree =>
    rcases hbusy with hover | hholds
    · rw [Request.isOver, hrest] at hover
      cases hover
    · exact absurd hholds hfree

end Standing

/-! ## Who was answered -/

/-- The answers of the requests at some places. -/
def answersAt (requests : List Request) (order : List Nat) : List Answered :=
  order.filterMap fun i => requests[i]?.bind Request.answered?

section

variable {requests : List Request} {order : List Nat} {i : Nat}

theorem answersAt_set_of_notMem (r : Request) (h : i ∉ order) :
    answersAt (requests.set i r) order = answersAt requests order := by
  induction order with
  | nil => rfl
  | cons j rest ih =>
    have hne : i ≠ j := fun heq => h (heq ▸ List.mem_cons_self)
    have hrest := ih fun hmem => h (List.mem_cons_of_mem _ hmem)
    unfold answersAt at hrest ⊢
    rw [List.filterMap_cons, List.filterMap_cons, List.getElem?_set_ne hne, hrest]

theorem answersAt_append (requests : List Request) (order later : List Nat) :
    answersAt requests (order ++ later) = answersAt requests order ++ answersAt requests later :=
  List.filterMap_append

theorem answersAt_concat {r : Request} (hr : requests[i]? = some r) :
    answersAt requests (order ++ [i]) = answersAt requests order ++ r.answered?.toList := by
  have hlast : answersAt requests [i] = r.answered?.toList := by
    unfold answersAt
    rw [List.filterMap_cons, hr]
    cases hanswered : r.answered? <;> simp [hanswered]
  rw [answersAt_append, hlast]

end

/-! ## The invariant -/

/-- The requests stand where they do because they were served one after another. -/
structure Traffic.Inv (sanitizer : Sanitizer) (σ : Traffic) (t : Tables) : Prop where
  serial : Serial sanitizer .empty σ.completed t
  nodup : σ.order.Nodup
  free : σ.store.isLocked = false → σ.store = ⟨t, none⟩
  held : σ.store.isLocked = true → ∃ i, σ.order.getLast? = some i ∧ i < σ.requests.length
  standing : ∀ i r, σ.requests[i]? = some r → Standing sanitizer t σ.store σ.order i r

namespace Traffic

variable {sanitizer : Sanitizer} {σ σ' : Traffic} {t t' : Tables} {i : Nat} {r r' : Request}

theorem inv_start (sanitizer : Sanitizer) (ops : List Operation) :
    (start sanitizer ops).Inv sanitizer .empty where
  serial := .nil
  nodup := .nil
  free _ := rfl
  held h := by cases h
  standing i r hr := by
    simp only [start, List.getElem?_map] at hr
    obtain ⟨op, -, rfl⟩ := Option.map_eq_some_iff.mp hr
    have hnew : i ∉ ([] : List Nat) := List.not_mem_nil
    cases hmutation : op.isMutation with
    | true =>
      have horderly := (Operation.orderly_of_mutation sanitizer hmutation).reported
      exact .waiting _ rfl horderly hnew fun store => Script.reaches_reported _ store
    | false =>
      exact .looking _ rfl (Operation.orderly_of_look sanitizer hmutation).reported hnew hmutation

/-- One request goes on and touches neither the store nor the order. -/
theorem Inv.spare (h : σ.Inv sanitizer t) (hr : σ.requests[i]? = some r)
    (hstore : σ'.store = σ.store) (horder : σ'.order = σ.order)
    (hrequests : σ'.requests = σ.requests.set i r') (hcompleted : σ'.completed = σ.completed)
    (hstanding : Standing sanitizer t σ.store σ.order i r') : σ'.Inv sanitizer t where
  serial := hcompleted ▸ h.serial
  nodup := horder ▸ h.nodup
  free hlocked := by
    rw [hstore] at hlocked ⊢
    exact h.free hlocked
  held hlocked := by
    rw [hstore] at hlocked
    obtain ⟨j, hlast, hj⟩ := h.held hlocked
    rw [horder, hrequests, List.length_set]
    exact ⟨j, hlast, hj⟩
  standing j rj hrj := by
    rw [hstore, horder]
    rw [hrequests] at hrj
    have hi := (List.getElem?_eq_some_iff.mp hr).1
    by_cases hij : i = j
    · subst hij
      rw [List.getElem?_set_self hi] at hrj
      cases hrj
      exact hstanding
    · rw [List.getElem?_set_ne hij] at hrj
      exact h.standing j rj hrj

/-- The request that holds the store, or obtains it now, goes on; nobody else holds it. -/
theorem Inv.write (h : σ.Inv sanitizer t) (hr : σ.requests[i]? = some r) (front : List Nat)
    (hrequests : σ'.requests = σ.requests.set i r') (horder : σ'.order = front ++ [i])
    (hnodup : (front ++ [i]).Nodup)
    (hothers : ∀ j, j ≠ i → ¬ Holds σ.store σ.order j ∧ (j ∈ front ↔ j ∈ σ.order))
    (hcompleted : answersAt σ.requests front = σ.completed)
    (hserial : Serial sanitizer .empty (σ.completed ++ r'.answered?.toList) t')
    (hfree : σ'.store.isLocked = false → σ'.store = ⟨t', none⟩)
    (hstanding : Standing sanitizer t' σ'.store (front ++ [i]) i r') : σ'.Inv sanitizer t' := by
  have hi := (List.getElem?_eq_some_iff.mp hr).1
  have hr' : (σ.requests.set i r')[i]? = some r' := List.getElem?_set_self hi
  have hnew : i ∉ front := by
    intro hmem
    exact (List.nodup_append.mp hnodup).2.2 i hmem i List.mem_cons_self rfl
  refine ⟨?_, horder ▸ hnodup, hfree, fun _ => ⟨i, ?_, ?_⟩, fun j rj hrj => ?_⟩
  · change Serial sanitizer .empty (answersAt σ'.requests σ'.order) t'
    rw [hrequests, horder, answersAt_concat hr', answersAt_set_of_notMem r' hnew, hcompleted]
    exact hserial
  · rw [horder, List.getLast?_concat]
  · rw [hrequests, List.length_set]
    exact hi
  · rw [horder]
    rw [hrequests] at hrj
    by_cases hij : i = j
    · subst hij
      rw [hr'] at hrj
      cases hrj
      exact hstanding
    · rw [List.getElem?_set_ne hij] at hrj
      obtain ⟨hfree, hmem⟩ := hothers j (Ne.symm hij)
      refine (h.standing j rj hrj).frame hfree ?_ ?_
      · rintro ⟨-, hlast⟩
        rw [List.getLast?_concat] at hlast
        exact hij (Option.some.inj hlast)
      · rw [List.mem_append, List.mem_singleton, hmem]
        exact or_iff_left (Ne.symm hij)

/-! ## Moves -/

theorem answered?_of_inside {x : Script (Except Error Reply)} (hrest : r.rest = some x)
    (horderly : x.Orderly .inside) : r.answered? = none := by
  unfold Request.answered?
  rw [hrest]
  cases x with
  | done answer => exact horderly.elim
  | readClock next | takeId next | report e rest | ask a next => rfl

theorem Inv.serial_of_unanswered (h : σ.Inv sanitizer t) (hnone : r'.answered? = none) :
    Serial sanitizer .empty (σ.completed ++ r'.answered?.toList) t := by
  rw [hnone, Option.toList_none, List.append_nil]
  exact h.serial

section

variable (clock : Nat → Instant) (source : Nat → Uuid) (h : σ.Inv sanitizer t)
  (hr : σ.requests[i]? = some r) {x : Script (Except Error Reply)} (hrest : r.rest = some x)

include h hr

/-- A request that has not obtained the store reads the clock, obtains the store or waits for it. -/
theorem Inv.step_waiting (horderly : x.Orderly .before) (hnew : i ∉ σ.order)
    (hreaches : ∀ store, Script.Reaches r.times r.ids (r.op.task sanitizer).run store x store) :
    (σ.step clock source i r x).Inv sanitizer t := by
  cases x with
  | done answer => exact h
  | report e rest => exact horderly.elim
  | takeId next => exact horderly.elim
  | readClock next =>
    refine h.spare hr rfl rfl rfl (answersAt_set_of_notMem _ hnew) ?_
    exact .waiting _ rfl (horderly _).reported hnew fun store => (hreaches store).readClock _
  | ask a next =>
    cases a with
    | commit | rollback | call c | query q => exact horderly.elim
    | begin =>
      cases hlocked : σ.store.isLocked with
      | true =>
        have hperform : σ.store.perform .begin = .error .locked := by
          simp only [Store.perform, hlocked, if_true]
        simp only [step, hperform]
        exact h
      | false =>
        -- it obtains the store, with the committed tables and an empty record
        have hstore := h.free hlocked
        have hperform : σ.store.perform .begin = .ok (.ok (), ⟨t, some []⟩) := by
          rw [hstore]
          rfl
        have hnodup : (σ.order ++ [i]).Nodup := by
          refine List.nodup_append.mpr ⟨h.nodup, List.pairwise_singleton _ i, fun j hj k hk heq => ?_⟩
          exact hnew (List.mem_singleton.mp hk ▸ heq ▸ hj)
        have hinside : (next (.ok ())).reported.Orderly .inside := Script.Orderly.reported horderly
        simp only [step, hperform, if_true]
        refine h.write hr σ.order rfl rfl hnodup (fun j _ => ⟨?_, Iff.rfl⟩) rfl ?_
          (fun hfree => by cases hfree) ?_
        · rintro ⟨hlocked', -⟩
          rw [hlocked] at hlocked'
          cases hlocked'
        · exact h.serial_of_unanswered (answered?_of_inside rfl hinside)
        · refine .holding _ t rfl hinside ⟨rfl, List.getLast?_concat⟩ (.begin t) ?_
          exact (hreaches ⟨t, none⟩).ask rfl

/-- A request that only looks waits for the store or is told what is committed. -/
theorem Inv.step_looking (horderly : x.Orderly .looking) (hnew : i ∉ σ.order)
    (hlooks : r.op.isMutation = false) : (σ.step clock source i r x).Inv sanitizer t := by
  cases x with
  | done answer => exact h
  | report e rest =>
    refine h.spare hr rfl rfl rfl (answersAt_set_of_notMem _ hnew) ?_
    exact .looking _ rfl (Script.Orderly.reported horderly) hnew hlooks
  | readClock next => exact horderly.elim
  | takeId next =>
    refine h.spare hr rfl rfl rfl (answersAt_set_of_notMem _ hnew) ?_
    exact .looking _ rfl (horderly _).reported hnew hlooks
  | ask a next =>
    cases a with
    | begin | commit | rollback | call c => exact horderly.elim
    | query q =>
      cases hlocked : σ.store.isLocked with
      | true =>
        have hperform : σ.store.perform (.query q) = .error .locked := by
          simp only [Store.perform, Store.look, hlocked, if_true, Except.map]
        simp only [step, hperform]
        exact h
      | false =>
        have hstore := h.free hlocked
        have hperform : σ.store.perform (.query q) = .ok (.ok (t.answer q), ⟨t, none⟩) := by
          rw [hstore]
          rfl
        simp only [step, hperform, reduceCtorEq, if_false]
        refine h.spare hr hstore.symm rfl rfl (answersAt_set_of_notMem _ hnew) ?_
        exact .looking _ rfl (horderly _).reported hnew hlooks

variable (hinside : x.Orderly .inside) (hholds : Holds σ.store σ.order i)

include hrest hinside hholds

/-- The request that holds the store goes on. -/
theorem Inv.write_held (hrequests : σ'.requests = σ.requests.set i r')
    (horder : σ'.order = σ.order)
    (hserial : Serial sanitizer .empty (σ.completed ++ r'.answered?.toList) t')
    (hfree : σ'.store.isLocked = false → σ'.store = ⟨t', none⟩)
    (hstanding : Standing sanitizer t' σ'.store σ.order i r') : σ'.Inv sanitizer t' := by
  obtain ⟨front, hfront⟩ := List.getLast?_eq_some_iff.mp hholds.2
  -- it has not been answered, so all answers are of those who obtained the store before it
  have hcompleted : answersAt σ.requests front = σ.completed := by
    change _ = answersAt σ.requests σ.order
    rw [hfront, answersAt_concat hr, answered?_of_inside hrest hinside, Option.toList_none,
      List.append_nil]
  refine h.write hr front hrequests (horder.trans hfront) (hfront ▸ h.nodup) (fun j hne => ?_)
    hcompleted hserial hfree (hfront ▸ hstanding)
  refine ⟨?_, ?_⟩
  · rintro ⟨-, hlast⟩
    exact hne (Option.some.inj (hlast.symm.trans hholds.2))
  · rw [hfront, List.mem_append, List.mem_singleton]
    exact (or_iff_left hne).symm

/-- The request that holds the store gives it back and is answered. -/
theorem Inv.step_finish {a : Access} {next : Except Error a.Answer → Script (Except Error Reply)}
    (hx : x = .ask a next) (ha : a ≠ .begin) {u : a.Answer}
    (hreaches : Script.Reaches r.times r.ids (r.op.task sanitizer).run ⟨t, none⟩ x σ.store)
    (hperform : σ.store.perform a = .ok (.ok u, ⟨t', none⟩))
    (hafter : (next (.ok u)).Orderly .after) : (σ.step clock source i r x).Inv sanitizer t' := by
  obtain ⟨answer, hdone⟩ := hafter.done
  subst hx
  have hreaches' := hreaches.ask hperform
  rw [hdone] at hreaches'
  let d : Answered := { op := r.op, answer, times := r.times, ids := r.ids }
  have hfits : d.Fits sanitizer t ∧ (d.effect sanitizer t).tables = t' := hreaches'.fits
  obtain ⟨hfits, rfl⟩ := hfits
  simp only [step, hperform, hdone, if_neg ha]
  refine h.write_held hr hrest hinside hholds rfl rfl (h.serial.append (.single hfits))
    (fun _ => rfl) ?_
  refine .answered answer rfl ?_ (List.mem_of_getLast? hholds.2)
  rintro ⟨hlocked, -⟩
  cases hlocked

theorem Inv.step_holding {t₁ : Tables} (hworking : Store.Working t σ.store t₁)
    (hreaches : Script.Reaches r.times r.ids (r.op.task sanitizer).run ⟨t, none⟩ x σ.store) :
    ∃ t', (σ.step clock source i r x).Inv sanitizer t' := by
  cases x with
  | done answer => exact hinside.elim
  | readClock next => exact hinside.elim
  | report e rest =>
    have hnext : rest.reported.Orderly .inside := Script.Orderly.reported hinside
    refine ⟨t, h.write_held hr hrest hinside hholds rfl rfl ?_ h.free ?_⟩
    · exact h.serial_of_unanswered (answered?_of_inside rfl hnext)
    · exact .holding _ t₁ rfl hnext hholds hworking hreaches.report
  | takeId next =>
    have hnext := (hinside (source σ.idsUsed)).reported
    refine ⟨t, h.write_held hr hrest hinside hholds rfl rfl ?_ h.free ?_⟩
    · exact h.serial_of_unanswered (answered?_of_inside rfl hnext)
    · exact .holding _ t₁ rfl hnext hholds hworking (hreaches.takeId _)
  | ask a next =>
    cases a with
    | begin | query q => exact hinside.elim
    | commit =>
      obtain ⟨record, hopen, -⟩ := hworking
      have hperform : σ.store.perform .commit = .ok (.ok (), ⟨t₁, none⟩) := by rw [hopen]; rfl
      exact ⟨t₁, h.step_finish clock source hr hrest hinside hholds rfl nofun hreaches hperform
        hinside⟩
    | rollback =>
      have habandon := hworking.abandon
      obtain ⟨record, hopen, -⟩ := hworking
      have hperform : σ.store.perform .rollback = .ok (.ok (), ⟨t, none⟩) := by
        rw [← habandon, hopen]
        rfl
      exact ⟨t, h.step_finish clock source hr hrest hinside hholds rfl nofun hreaches hperform
        hinside⟩
    | call c =>
      obtain ⟨store', hperform, hworking'⟩ := (answering_working t).answers ⟨c, rfl⟩ hworking
      have hlocked : store'.isLocked = true := by
        obtain ⟨record, rfl, -⟩ := hworking'
        rfl
      have hnext := (hinside (t₁.ask (.call c)).1).reported
      simp only [step, hperform, reduceCtorEq, if_false]
      refine ⟨t, h.write_held hr hrest hinside hholds rfl rfl ?_ (fun hfree => ?_) ?_⟩
      · exact h.serial_of_unanswered (answered?_of_inside rfl hnext)
      · rw [hlocked] at hfree
        cases hfree
      · exact .holding _ _ rfl hnext ⟨hlocked, hholds.2⟩ hworking' (hreaches.ask hperform)

end

theorem holder?_eq_some_iff : σ.holder? = some i ↔ Holds σ.store σ.order i := by
  unfold holder? Holds
  cases σ.store.isLocked <;> simp

theorem Inv.advance (clock : Nat → Instant) (source : Nat → Uuid) (h : σ.Inv sanitizer t)
    (hr : σ.requests[i]? = some r) {x : Script (Except Error Reply)} (hrest : r.rest = some x) :
    ∃ t', (σ.step clock source i r x).Inv sanitizer t' := by
  cases h.standing i r hr with
  | waiting y hrest' horderly hnew hreaches =>
    cases hrest.symm.trans hrest'
    exact ⟨t, h.step_waiting clock source hr horderly hnew hreaches⟩
  | looking y hrest' horderly hnew hlooks =>
    cases hrest.symm.trans hrest'
    exact ⟨t, h.step_looking clock source hr horderly hnew hlooks⟩
  | holding y t₁ hrest' horderly hholds hworking hreaches =>
    cases hrest.symm.trans hrest'
    exact h.step_holding clock source hr hrest horderly hholds hworking hreaches
  | answered answer hrest' hfree hold =>
    cases hrest.symm.trans hrest'
    exact ⟨t, h⟩
  | gone hrest' hfree => cases hrest.symm.trans hrest'

/-- What a request that is given up has done to the tables is undone. -/
theorem Inv.cancel (h : σ.Inv sanitizer t) (hr : σ.requests[i]? = some r)
    (hover : r.isOver = false) : (σ.cancel i r).Inv sanitizer t := by
  have hspare : ¬ Holds σ.store σ.order i → i ∉ σ.order → (σ.cancel i r).Inv sanitizer t := by
    intro hfree hnew
    have hstore : (σ.cancel i r).store = σ.store :=
      if_neg fun hholder => hfree (holder?_eq_some_iff.mp hholder)
    exact h.spare hr hstore rfl rfl (answersAt_set_of_notMem _ hnew) (.gone rfl hfree)
  have hnew_free : i ∉ σ.order → ¬ Holds σ.store σ.order i := by
    rintro hnew ⟨-, hlast⟩
    exact hnew (List.mem_of_getLast? hlast)
  cases h.standing i r hr with
  | waiting x hrest horderly hnew hreaches => exact hspare (hnew_free hnew) hnew
  | looking x hrest horderly hnew hlooks => exact hspare (hnew_free hnew) hnew
  | holding x t₁ hrest horderly hholds hworking hreaches =>
    have hstore : (σ.cancel i r).store = ⟨t, none⟩ :=
      (if_pos (holder?_eq_some_iff.mpr hholds)).trans hworking.abandon
    refine h.write_held hr hrest horderly hholds rfl rfl ?_ (fun _ => hstore) (.gone rfl ?_)
    · exact h.serial_of_unanswered rfl
    · rintro ⟨hlocked, -⟩
      rw [hstore] at hlocked
      cases hlocked
  | answered answer hrest hfree hold =>
    rw [Request.isOver, hrest] at hover
    cases hover
  | gone hrest hfree =>
    rw [Request.isOver, hrest] at hover
    cases hover

/-- A move is a step of one request, the end of one, or nothing. -/
theorem move_cases (clock : Nat → Instant) (source : Nat → Uuid) (σ : Traffic) (m : Move) :
    σ.move clock source m = σ ∨
    (∃ i r x, σ.requests[i]? = some r ∧ r.rest = some x ∧
      σ.move clock source m = σ.step clock source i r x) ∨
    (∃ i r, σ.requests[i]? = some r ∧ r.isOver = false ∧
      σ.move clock source m = σ.cancel i r) := by
  cases m with
  | advance i =>
    cases hr : σ.requests[i]? with
    | none => exact .inl (by simp only [move, hr])
    | some r =>
      cases hrest : r.rest with
      | none => exact .inl (by simp only [move, hr, hrest])
      | some x => exact .inr (.inl ⟨i, r, x, hr, hrest, by simp only [move, hr, hrest]⟩)
  | cancel i =>
    cases hr : σ.requests[i]? with
    | none => exact .inl (by simp only [move, hr])
    | some r =>
      cases hover : r.isOver with
      | true => exact .inl (by simp only [move, hr, hover, if_true])
      | false =>
        exact .inr (.inr ⟨i, r, hr, hover,
          by simp only [move, hr, hover, Bool.false_eq_true, if_false]⟩)

theorem Inv.move (clock : Nat → Instant) (source : Nat → Uuid) (h : σ.Inv sanitizer t) (m : Move) :
    ∃ t', (σ.move clock source m).Inv sanitizer t' := by
  obtain hmove | ⟨i, r, x, hr, hrest, hmove⟩ | ⟨i, r, hr, hover, hmove⟩ :=
    move_cases clock source σ m
  · exact ⟨t, hmove.symm ▸ h⟩
  · rw [hmove]
    exact h.advance clock source hr hrest
  · rw [hmove]
    exact ⟨t, h.cancel hr hover⟩

theorem Inv.follow (clock : Nat → Instant) (source : Nat → Uuid) (h : σ.Inv sanitizer t)
    (moves : List Move) : ∃ t', (σ.follow clock source moves).Inv sanitizer t' := by
  induction moves generalizing σ t with
  | nil => exact ⟨t, h⟩
  | cons m rest ih =>
    obtain ⟨t₁, h₁⟩ := h.move clock source m
    exact ih h₁

end Traffic

end Weblog
