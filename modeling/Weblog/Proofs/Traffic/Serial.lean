import Weblog.Proofs.Blog.Permanence
import Weblog.Proofs.Traffic.Discipline

/-!
# Requests one after another

`Serial` says that requests, served one after another from some tables on, each with the readings and
the identifiers that it took, give the answers that were given and leave other tables.

* `Serial.performAll_eq`: the service does just that.
* `Serial.succeeded`: requests that failed may be left out.
-/

namespace Weblog

namespace Answered

/-- What a request comes to when it is served alone with what it took. -/
def effect (sanitizer : Sanitizer) (d : Answered) (t : Tables) : Effect :=
  d.op.effect sanitizer (d.times.getD 0 .epoch) (fun n => d.ids.getD n (.ofNat 0)) t

/-- Served alone, the request gives the answer that was given and takes what it took. -/
structure Fits (sanitizer : Sanitizer) (d : Answered) (t : Tables) : Prop where
  answer : (d.effect sanitizer t).answer = d.answer
  times : (d.effect sanitizer t).clockReads = d.times.length
  ids : (d.effect sanitizer t).taken = d.ids.length

def succeeded (d : Answered) : Bool :=
  match d.answer with
  | .ok _ => true
  | .error _ => false

/-- Serves requests again, one after another on an empty store, each with the readings and the
identifiers that it took. -/
def again (sanitizer : Sanitizer) (done : List Answered) :
    List (Outcome (Except Error Reply)) × World :=
  performAll (.serving (done.flatMap (·.times)) (done.flatMap (·.ids))) sanitizer (done.map (·.op))
    World.initial

end Answered

/-- Requests that fit one after another, from tables to tables. -/
inductive Serial (sanitizer : Sanitizer) : Tables → List Answered → Tables → Prop
  | nil {t : Tables} : Serial sanitizer t [] t
  | cons {t t' : Tables} {d : Answered} {rest : List Answered} (hfits : d.Fits sanitizer t)
    (hrest : Serial sanitizer (d.effect sanitizer t).tables rest t') :
    Serial sanitizer t (d :: rest) t'

section

variable {sanitizer : Sanitizer} {t t' : Tables} {d : Answered} {done later : List Answered}

/-- A script that was run to its end, while nobody else wrote, fits. -/
theorem Script.Reaches.fits
    (h : Reaches d.times d.ids (d.op.task sanitizer).run ⟨t, none⟩ (.done d.answer) ⟨t', none⟩) :
    d.Fits sanitizer t ∧ (d.effect sanitizer t).tables = t' := by
  let s := Surroundings.serving d.times d.ids
  let w : World := { World.initial with store := ⟨t, none⟩ }
  have hcalm : ∀ m n, s.faults m n = none := fun _ _ => rfl
  obtain ⟨w', hrun, hstore, hclock, hids⟩ :=
    h s w hcalm rfl (serves_getD d.times .epoch) (serves_getD d.ids (.ofNat 0))
  have hperform : d.op.perform s sanitizer w = (.answered d.answer, w'.abandon) := by
    unfold Operation.perform perform
    rw [hrun]
    rfl
  have heffect : d.op.effect sanitizer (s.clock w.clockReads) (fun n => s.ids (w.idsUsed + n)) t =
      d.effect sanitizer t := by
    simp only [Answered.effect, s, w, World.initial, Surroundings.serving,
      Surroundings.undisturbed, Nat.zero_add]
  have hperformed := perform_cases s sanitizer d.op (w := w) rfl
  rw [heffect, hperform] at hperformed
  cases hperformed with
  | struck hstruck => exact absurd (Surroundings.calm_of_no_faults hcalm) hstruck
  | done _ hanswer hstore' hclock' hids' _ =>
    have habandon : w'.abandon.store = ⟨t', none⟩ := by
      change w'.store.abandon = _
      rw [hstore]
      rfl
    refine ⟨⟨?_, ?_, ?_⟩, ?_⟩
    · exact (Outcome.answered.inj hanswer).symm
    · exact Nat.add_left_cancel (hclock'.symm.trans hclock)
    · exact Nat.add_left_cancel (hids'.symm.trans hids)
    · exact (congrArg Store.tables (habandon.symm.trans hstore')).symm

namespace Answered

/-- A request that failed changed nothing. -/
theorem Fits.tables_of_error (hfits : d.Fits sanitizer t) {e : Error}
    (hanswer : d.answer = .error e) : (d.effect sanitizer t).tables = t :=
  Operation.effect_tables_of_error (hfits.answer.trans hanswer)

/-- A request that fits is answered so again, wherever it is served with what it took. -/
theorem Fits.perform (hfits : d.Fits sanitizer t) {s : Surroundings}
    (hcalm : ∀ m n, s.faults m n = none) {w : World} (hfree : w.store.Free t) {times : List Instant} {ids : List Uuid}
    (htimes : Serves s.clock w.clockReads (d.times ++ times))
    (hids : Serves s.ids w.idsUsed (d.ids ++ ids)) :
    let ran := d.op.perform s sanitizer w
    ran.1 = .answered d.answer ∧ ran.2.store = ⟨(d.effect sanitizer t).tables, none⟩ ∧
      ran.2.clockReads = w.clockReads + d.times.length ∧
      ran.2.idsUsed = w.idsUsed + d.ids.length := by
  have heffect : d.op.effect sanitizer (s.clock w.clockReads) (fun n => s.ids (w.idsUsed + n)) t =
      d.effect sanitizer t := by
    refine Operation.effect_congr (fun hread => ?_) (fun n hn => ?_)
    · have hlt : 0 < d.times.length := hfits.times ▸ hread
      apply htimes.left 0
      rw [List.getD_eq_getElem?_getD, List.getElem?_eq_getElem hlt, Option.getD_some]
    · have hlt : n < d.ids.length := hfits.ids ▸ hn
      apply hids.left n
      rw [List.getD_eq_getElem?_getD, List.getElem?_eq_getElem hlt, Option.getD_some]
  have hperformed := perform_cases s sanitizer d.op hfree
  rw [heffect] at hperformed
  cases hperformed with
  | struck hstruck => exact absurd (Surroundings.calm_of_no_faults hcalm) hstruck
  | done _ hanswer hstore hclock hids _ =>
    rw [hfits.answer] at hanswer
    rw [hfits.times] at hclock
    rw [hfits.ids] at hids
    exact ⟨hanswer, hstore, hclock, hids⟩

/-- Served alone, it is answered so. -/
theorem Fits.alone (hfits : d.Fits sanitizer t) :
    let ran := d.op.perform (.serving d.times d.ids) sanitizer
      { World.initial with store := ⟨t, none⟩ }
    ran.1 = .answered d.answer ∧ ran.2.store = ⟨(d.effect sanitizer t).tables, none⟩ := by
  have htimes : Serves (Surroundings.serving d.times d.ids).clock 0 (d.times ++ []) := by
    rw [List.append_nil]
    exact serves_getD _ _
  have hids : Serves (Surroundings.serving d.times d.ids).ids 0 (d.ids ++ []) := by
    rw [List.append_nil]
    exact serves_getD _ _
  obtain ⟨hanswer, hstore, -, -⟩ := hfits.perform (fun _ _ => rfl)
    (w := { World.initial with store := ⟨t, none⟩ }) rfl htimes hids
  exact ⟨hanswer, hstore⟩

end Answered

namespace Serial

theorem single (hfits : d.Fits sanitizer t) :
    Serial sanitizer t [d] (d.effect sanitizer t).tables :=
  .cons hfits .nil

theorem append {t'' : Tables} (h : Serial sanitizer t done t')
    (h' : Serial sanitizer t' later t'') : Serial sanitizer t (done ++ later) t'' := by
  induction h with
  | nil => exact h'
  | cons hfits hrest ih => exact .cons hfits (ih h')

theorem split {t'' : Tables} (h : Serial sanitizer t (done ++ later) t'') :
    ∃ t', Serial sanitizer t done t' ∧ Serial sanitizer t' later t'' := by
  induction done generalizing t with
  | nil => exact ⟨t, .nil, h⟩
  | cons d rest ih =>
    cases h with
    | cons hfits hrest =>
      obtain ⟨t', hdone, hlater⟩ := ih hrest
      exact ⟨t', .cons hfits hdone, hlater⟩

theorem performAll_of_serves {s : Surroundings} (hcalm : ∀ m n, s.faults m n = none)
    (h : Serial sanitizer t done t') {w : World} (hfree : w.store.Free t)
    (htimes : Serves s.clock w.clockReads (done.flatMap (·.times)))
    (hids : Serves s.ids w.idsUsed (done.flatMap (·.ids))) :
    (performAll s sanitizer (done.map (·.op)) w).1 = done.map (fun d => .answered d.answer) ∧
      (performAll s sanitizer (done.map (·.op)) w).2.store = ⟨t', none⟩ := by
  induction h generalizing w with
  | nil => exact ⟨rfl, hfree⟩
  | @cons t t' d rest hfits hrest ih =>
    rw [List.flatMap_cons] at htimes hids
    obtain ⟨hanswer, hstore, hclock, hused⟩ := hfits.perform hcalm hfree htimes hids
    obtain ⟨hanswers, hstore'⟩ := ih hstore (hclock ▸ htimes.right) (hused ▸ hids.right)
    refine ⟨?_, hstore'⟩
    change (d.op.perform s sanitizer w).1 ::
      (performAll s sanitizer (rest.map (·.op)) (d.op.perform s sanitizer w).2).1 = _
    rw [hanswer, hanswers, List.map_cons]

/-- The service answers them so when it serves them again. -/
theorem again_eq (h : Serial sanitizer .empty done t) :
    (Answered.again sanitizer done).1 = done.map (fun d => .answered d.answer) ∧
      (Answered.again sanitizer done).2.store = ⟨t, none⟩ :=
  h.performAll_of_serves (fun _ _ => rfl) rfl (serves_getD _ _) (serves_getD _ _)

/-- The requests that failed changed nothing. -/
theorem succeeded (h : Serial sanitizer t done t') :
    Serial sanitizer t (done.filter Answered.succeeded) t' := by
  induction h with
  | nil => exact .nil
  | @cons t t' d rest hfits hrest ih =>
    cases hsucceeded : d.succeeded with
    | true =>
      rw [List.filter_cons_of_pos hsucceeded]
      exact .cons hfits ih
    | false =>
      rw [List.filter_cons_of_neg (by rw [hsucceeded]; exact Bool.false_ne_true)]
      cases hanswer : d.answer with
      | ok reply => simp [Answered.succeeded, hanswer] at hsucceeded
      | error e =>
        rwa [hfits.tables_of_error hanswer] at ih

end Serial

end

end Weblog
