import Weblog.Proofs.Error
import Weblog.Proofs.Plan

/-!
# Runs that differ in the text of failures

The text of an internal error makes no difference to anything but the texts of errors and events.

* `Agree`: two answers are the same, but for the text of an internal error.
* `Script.Alike`: two scripts go on alike as long as what they are answered agrees.
* `Script.Alike.run`: in surroundings whose failures differ in their texts and events only, alike
  scripts come to alike outcomes and to worlds that differ in their events only.
* `Operation.discreet`: every operation is alike to itself, since it hands on the errors of the
  store as they are (`Script.Only`).
-/

namespace Weblog

variable {α β : Type}

/-! ## Answers -/

/-- Two results are the same, but for the text of an internal error. -/
inductive Agree : Except Error α → Except Error α → Prop
  | ok (a : α) : Agree (.ok a) (.ok a)
  | error {e f : Error} (h : e.disclosed = f.disclosed) : Agree (.error e) (.error f)

theorem Agree.refl (x : Except Error α) : Agree x x := by
  cases x with
  | ok a => exact .ok a
  | error e => exact .error rfl

/-! ## Scripts -/

/-- Two scripts do the same, but for the events that they report, as long as what they are answered
agrees, and end with results that are related. -/
inductive Script.Alike (R : α → α → Prop) : Script α → Script α → Prop
  | done {a b : α} (h : R a b) : Alike R (.done a) (.done b)
  | readClock {f g : Instant → Script α} (h : ∀ now, Alike R (f now) (g now)) :
    Alike R (.readClock f) (.readClock g)
  | takeId {f g : Uuid → Script α} (h : ∀ id, Alike R (f id) (g id)) :
    Alike R (.takeId f) (.takeId g)
  | report (e e' : Event) {x y : Script α} (h : Alike R x y) :
    Alike R (.report e x) (.report e' y)
  | ask {a : Access} {f g : Except Error a.Answer → Script α}
    (h : ∀ x y, Agree x y → Alike R (f x) (g y)) : Alike R (.ask a f) (.ask a g)

namespace Script.Alike

variable {R : α → α → Prop} {S : β → β → Prop}

theorem bind {x y : Script α} {f g : α → Script β} (h : Alike R x y)
    (hnext : ∀ a b, R a b → Alike S (f a) (g b)) : Alike S (x.bind f) (y.bind g) := by
  induction h with
  | done hab => exact hnext _ _ hab
  | readClock _ ih => exact .readClock ih
  | takeId _ ih => exact .takeId ih
  | report e e' _ ih => exact .report e e' ih
  | ask _ ih => exact .ask ih

theorem map {x y : Script α} {f : α → β} (h : Alike R x y) (hf : ∀ a b, R a b → S (f a) (f b)) :
    Alike S (f <$> x) (f <$> y) :=
  h.bind fun a b hab => .done (hf a b hab)

/-- A script that ends with the errors that it is answered is alike to itself. -/
theorem of_only {ok : Access → Prop} {x : Script (Except Error α)} (h : x.Only ok) :
    Alike Agree x x := by
  induction x with
  | done a => exact .done (.refl a)
  | readClock next ih => exact absurd h id
  | takeId next ih => exact .takeId fun id => ih id (h id)
  | report e rest ih => exact .report e e (ih h)
  | ask a next ih =>
    obtain ⟨-, herror, hnext⟩ := h
    refine .ask fun x y hxy => ?_
    cases hxy with
    | ok answer => exact ih _ (hnext answer)
    | error he =>
      rw [herror, herror]
      exact .done (.error he)

end Script.Alike

/-! ## Runs -/

/-- What happens at an access is the same, but for the text of an internal error and for what is
reported about the failure. -/
inductive Fault.Alike : Option Fault → Option Fault → Prop
  | none : Alike none none
  | fails {e f : Error} (h : e.disclosed = f.disclosed) (es fs : List Event) :
    Alike (some (.fails e es)) (some (.fails f fs))
  | panics : Alike (some .panics) (some .panics)
  | hangs : Alike (some .hangs) (some .hangs)

/-- Surroundings that differ in the texts of internal failures and in what is reported about
failures, but not in where failures strike. -/
structure Surroundings.Alike (s s' : Surroundings) : Prop where
  clock : s.clock = s'.clock
  ids : s.ids = s'.ids
  faults : ∀ m n, Fault.Alike (s.faults m n) (s'.faults m n)

/-- Two worlds are the same, but for what was reported in them. -/
def World.Alike (w w' : World) : Prop :=
  ∃ events, w' = { w with events }

/-- Two outcomes are the same, but for results, which are related. -/
inductive Outcome.Alike (R : α → α → Prop) : Outcome α → Outcome α → Prop
  | answered {a b : α} (h : R a b) : Alike R (.answered a) (.answered b)
  | panicked (m : Method) : Alike R (.panicked m) (.panicked m)
  | pending : Alike R .pending .pending

theorem Outcome.Alike.eq {o o' : Outcome α} (h : Alike Eq o o') : o = o' := by
  cases h with
  | answered hab => rw [hab]
  | panicked m => rfl
  | pending => rfl

variable {s s' : Surroundings} {w w' : World} {R : α → α → Prop}

theorem World.Alike.abandon (h : w.Alike w') : w.abandon.Alike w'.abandon := by
  obtain ⟨events, rfl⟩ := h
  exact ⟨events, rfl⟩

theorem World.Alike.fail (h : w.Alike w') (a : Access) (es fs : List Event) :
    (w.fail a es).Alike (w'.fail a fs) := by
  obtain ⟨events, rfl⟩ := h
  have hreported : World.Alike { w with events := es.reverse ++ w.events }
      { w with events := fs.reverse ++ events } := ⟨_, rfl⟩
  cases a with
  | commit | rollback => exact hreported.abandon
  | begin | call c | query q => exact hreported

/-- Alike scripts run alike. -/
theorem Script.Alike.run {x y : Script α} (h : Alike R x y) (hs : s.Alike s') (hw : w.Alike w') :
    Outcome.Alike R (x.run s w).1 (y.run s' w').1 ∧ (x.run s w).2.Alike (y.run s' w').2 := by
  induction h generalizing w w' with
  | done hab => exact ⟨.answered hab, hw⟩
  | readClock _ ih =>
    obtain ⟨events, rfl⟩ := hw
    simp only [Script.run, ← hs.clock]
    exact ih _ ⟨events, rfl⟩
  | takeId _ ih =>
    obtain ⟨events, rfl⟩ := hw
    simp only [Script.run, ← hs.ids]
    exact ih _ ⟨events, rfl⟩
  | report e e' _ ih =>
    obtain ⟨events, rfl⟩ := hw
    exact ih ⟨e' :: events, rfl⟩
  | @ask a f g _ ih =>
    obtain ⟨events, rfl⟩ := hw
    let asked : World := { w with trace := a :: w.trace }
    have hasked : asked.Alike { asked with events } := ⟨events, rfl⟩
    have hfault := hs.faults a.method (w.uses a.method)
    simp only [Script.run]
    change Fault.Alike _ (s'.faults a.method (World.uses { w with events } a.method)) at hfault
    generalize s.faults a.method (w.uses a.method) = fault at hfault ⊢
    generalize s'.faults a.method (World.uses { w with events } a.method) = fault' at hfault ⊢
    cases hfault with
    | none =>
      cases w.store.perform a with
      | ok answered => exact ih _ _ (.refl _) ⟨events, rfl⟩
      | error refusal => exact ⟨.pending, hasked⟩
    | fails he es fs => exact ih _ _ (.error he) (hasked.fail a es fs)
    | panics => exact ⟨.panicked _, hasked⟩
    | hangs => exact ⟨.pending, hasked⟩

theorem Script.Alike.perform {x y : Script α} (h : Alike R x y) (hs : s.Alike s')
    (hw : w.Alike w') :
    Outcome.Alike R (x.perform s w).1 (y.perform s' w').1 ∧
      (x.perform s w).2.Alike (y.perform s' w').2 :=
  ⟨(h.run hs hw).1, (h.run hs hw).2.abandon⟩

/-! ## Operations -/

namespace Task

/-- A task is alike to itself. -/
def Discreet (x : Task α) : Prop :=
  Script.Alike Agree x.run x.run

namespace Discreet

theorem bind {x : Task α} {f : α → Task β} (hx : x.Discreet) (hf : ∀ a, (f a).Discreet) :
    (x >>= f).Discreet := by
  unfold Discreet at hx ⊢
  rw [run_bind]
  refine hx.bind fun a b hab => ?_
  cases hab with
  | ok a => exact hf a
  | error he => exact .done (.error he)

theorem pure (a : α) : (Pure.pure a : Task α).Discreet :=
  .done (.refl _)

theorem throw (e : Error) : (MonadExcept.throw e : Task α).Discreet :=
  .done (.refl _)

theorem readClock : Task.readClock.Discreet :=
  Script.Alike.readClock fun _ => .done (.refl _)

theorem report (e : Event) : (Task.report e).Discreet :=
  Script.Alike.report e e (.done (.refl _))

/-- However a transaction ends, the text of the error that ends it makes no difference. -/
theorem finish {x y : Except Error α} (h : Agree x y) :
    Script.Alike Agree (Task.finish x).run (Task.finish y).run := by
  cases h with
  | ok a =>
    rw [run_finish_ok]
    refine .ask fun x y hxy => ?_
    cases hxy with
    | ok u => exact .done (.ok a)
    | error he => exact .done (.error he)
  | error he =>
    rw [run_finish_error, run_finish_error]
    refine .ask fun x y hxy => ?_
    cases hxy with
    | ok u => exact .done (.error he)
    | error _ => exact .report _ _ (.done (.error he))

theorem transact {body : Task α} (h : body.Discreet) : (Task.transact body).Discreet := by
  unfold Discreet
  rw [run_transact]
  refine .ask fun x y hxy => ?_
  cases hxy with
  | ok u => exact Script.Alike.bind h fun _ _ hab => finish hab
  | error he => exact .done (.error he)

theorem of_only {ok : Access → Prop} {x : Task α} (h : x.Only ok) : x.Discreet :=
  Script.Alike.of_only h

end Discreet

end Task

theorem Plan.discreet {plan : Plan} (h : plan.Sound) : plan.task.Discreet := by
  cases plan with
  | refuse e => exact .throw e
  | look task => exact .of_only h
  | change body =>
    refine .bind .readClock fun now => .bind (.transact (.of_only (h now))) fun settled => ?_
    cases settled.event? with
    | none => exact .pure _
    | some e => exact .bind (.report e) fun _ => .pure _

/-- Every operation hands on the errors of the store as they are. -/
theorem Operation.discreet (sanitizer : Sanitizer) (op : Operation) :
    (op.task sanitizer).Discreet := by
  rw [op.task_eq_plan]
  exact Plan.discreet (op.plan_sound sanitizer)

end Weblog
