import Weblog.Proofs.Task

/-!
# Runs of scripts

What a run does at each step (`run_bind`, `run_map`, `run_ask_of_none` and its companions), and
which faults strike it (`Surroundings.Calm`).
-/

namespace Weblog

variable {α β : Type}

/-! ## Failures -/

/-- The run did not end with a result. -/
def Outcome.Fails (o : Outcome (Except Error α)) : Prop :=
  ∀ a, o ≠ .answered (.ok a)

theorem Outcome.fails_error (e : Error) : (answered (.error e) : Outcome (Except Error α)).Fails :=
  fun _ h => by cases h

theorem Outcome.fails_panicked (m : Method) : (panicked m : Outcome (Except Error α)).Fails :=
  fun _ h => by cases h

theorem Outcome.fails_pending : (pending : Outcome (Except Error α)).Fails :=
  fun _ h => by cases h

/-! ## Steps -/

namespace Script

variable (s : Surroundings)

/-- A script goes on with the result of the one before, unless that one has none. -/
theorem run_bind (x : Script α) (f : α → Script β) (w : World) :
    (x.bind f).run s w = match x.run s w with
      | (.answered a, w') => (f a).run s w'
      | (.panicked m, w') => (.panicked m, w')
      | (.pending, w') => (.pending, w') := by
  induction x generalizing w with
  | done a => rfl
  | readClock next ih => exact ih _ _
  | takeId next ih => exact ih _ _
  | report e rest ih => exact ih _
  | ask a next ih =>
    simp only [bind, run]
    cases s.faults a.method (w.uses a.method) with
    | none =>
      cases w.store.perform a with
      | ok answered => exact ih _ _
      | error refusal => rfl
    | some fault =>
      cases fault with
      | fails e events => exact ih _ _
      | panics => rfl
      | hangs => rfl

theorem run_map (f : α → β) (x : Script α) (w : World) :
    (f <$> x).run s w = match x.run s w with
      | (.answered a, w') => (.answered (f a), w')
      | (.panicked m, w') => (.panicked m, w')
      | (.pending, w') => (.pending, w') :=
  run_bind s x (fun a => .done (f a)) w

theorem answered_map {f : α → β} {x : Script α} {w : World} {b : β} :
    ((f <$> x).run s w).1 = .answered b ↔ ∃ a, (x.run s w).1 = .answered a ∧ f a = b := by
  rw [run_map]
  rcases x.run s w with ⟨a | m | _, w'⟩ <;> simp

variable {s} {a : Access} {next : Except Error a.Answer → Script α} {w : World}

theorem run_ask_of_none {answer : Except Error a.Answer} {store : Store}
    (hFault : s.faults a.method (w.uses a.method) = none)
    (hStore : w.store.perform a = .ok (answer, store)) :
    (ask a next).run s w = (next answer).run s { w with trace := a :: w.trace, store } := by
  simp only [run, hFault, hStore]

theorem run_ask_of_fails {e : Error} {events : List Event}
    (hFault : s.faults a.method (w.uses a.method) = some (.fails e events)) :
    (ask a next).run s w =
      (next (.error e)).run s (World.fail { w with trace := a :: w.trace } a events) := by
  simp only [run, hFault]

theorem run_ask_of_panics (hFault : s.faults a.method (w.uses a.method) = some .panics) :
    (ask a next).run s w = (.panicked a.method, { w with trace := a :: w.trace }) := by
  simp only [run, hFault]

theorem run_ask_of_hangs (hFault : s.faults a.method (w.uses a.method) = some .hangs) :
    (ask a next).run s w = (.pending, { w with trace := a :: w.trace }) := by
  simp only [run, hFault]

@[simp] theorem trace_fail (w : World) (a : Access) (events : List Event) :
    (w.fail a events).trace = w.trace := by
  cases a <;> rfl

end Script

/-! ## Faults that strike -/

namespace Surroundings

/-- No access between two traces, the second of which goes on from the first, meets a fault. -/
def Calm (s : Surroundings) (before after : List Access) : Prop :=
  ∀ m n, before.countP (·.method = m) ≤ n → n < after.countP (·.method = m) → s.faults m n = none

variable {s : Surroundings} {before after : List Access} {a : Access}

theorem calm_refl (s : Surroundings) (before : List Access) : s.Calm before before :=
  fun _ _ hle hlt => absurd hlt (Nat.not_lt.mpr hle)

theorem calm_of_no_faults (h : ∀ m n, s.faults m n = none) : s.Calm before after :=
  fun m n _ _ => h m n

/-- Being calm is checked access by access. -/
theorem calm_cons_iff (h : ∃ asked, after = asked ++ a :: before) :
    s.Calm before after ↔
      s.faults a.method (before.countP (·.method = a.method)) = none ∧
        s.Calm (a :: before) after := by
  obtain ⟨asked, rfl⟩ := h
  constructor
  · intro hCalm
    refine ⟨hCalm _ _ (Nat.le_refl _) ?_, fun m n hle hlt => hCalm m n ?_ hlt⟩
    · simp only [List.countP_append, List.countP_cons, decide_true, if_true]
      omega
    · rw [List.countP_cons] at hle
      exact Nat.le_trans (Nat.le_add_right _ _) hle
  · rintro ⟨hFault, hCalm⟩ m n hle hlt
    by_cases hn : n = before.countP (·.method = m) ∧ a.method = m
    · obtain ⟨rfl, rfl⟩ := hn
      exact hFault
    · refine hCalm m n ?_ hlt
      rw [List.countP_cons]
      by_cases hm : a.method = m
      · have hne : n ≠ before.countP (·.method = m) := fun h => hn ⟨h, hm⟩
        simp only [hm, decide_true, if_true]
        omega
      · simp only [hm, decide_false, Bool.false_eq_true, if_false]
        omega

/-- A fault that strikes early strikes the whole. -/
theorem Calm.init {middle : List Access} (h : s.Calm before after)
    (hAfter : ∃ asked, after = asked ++ middle) : s.Calm before middle := by
  obtain ⟨asked, rfl⟩ := hAfter
  intro m n hle hlt
  refine h m n hle (Nat.lt_of_lt_of_le hlt ?_)
  rw [List.countP_append]
  omega

theorem Calm.tail {middle : List Access} (h : s.Calm before after)
    (hBefore : ∃ asked, middle = asked ++ before) : s.Calm middle after := by
  obtain ⟨asked, rfl⟩ := hBefore
  intro m n hle hlt
  refine h m n (Nat.le_trans ?_ hle) hlt
  rw [List.countP_append]
  omega

theorem Calm.trans {middle : List Access} (h : s.Calm before middle) (h' : s.Calm middle after) :
    s.Calm before after := by
  intro m n hle hlt
  by_cases hn : n < middle.countP (·.method = m)
  · exact h m n hle hn
  · exact h' m n (Nat.le_of_not_lt hn) hlt

theorem calm_single_iff :
    s.Calm before (a :: before) ↔ s.faults a.method (before.countP (·.method = a.method)) = none :=
  (calm_cons_iff ⟨[], rfl⟩).trans (and_iff_left (s.calm_refl _))

theorem not_calm_single {fault : Fault}
    (hfault : s.faults a.method (before.countP (·.method = a.method)) = some fault) :
    ¬ s.Calm before (a :: before) := by
  intro hcalm
  rw [calm_single_iff.mp hcalm] at hfault
  cases hfault

end Surroundings

end Weblog
