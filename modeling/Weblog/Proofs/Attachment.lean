import Weblog.Proofs.Store.Attach
import Weblog.Proofs.Transition
import Weblog.Proofs.Visits

/-!
# Requests for categories

A request to put a version into categories is checked in five steps: is any category named, is none
named twice, is the version there, are the categories there, and which of the links are new.

* `repeats_eq`: the categories that a request is refused for naming twice are those that it names
  after it has named them before.
* `AttachCategories.effect_of_unstored`, `effect_of_unknown`, `effect_of_known`: what a valid
  request comes to.
* `AttachCategories.granted`: the store is asked to add links only when it can add them all, so that
  its own checks of them never answer.
* `attach_outcome`: what becomes of every request that meets no fault.
-/

namespace Weblog

/-! ## Categories that are named twice -/

section

variable {α : Type} [DecidableEq α]

/-- The members of a list that stand in it before their place too. -/
def laterOccurrences (l : List α) : List α :=
  (l.zipIdx.filter fun e => e.1 ∈ l.take e.2).map Prod.fst

theorem laterOccurrences_concat (l : List α) (a : α) :
    laterOccurrences (l ++ [a]) = laterOccurrences l ++ if a ∈ l then [a] else [] := by
  have hfront : ∀ e ∈ l.zipIdx,
      decide (e.1 ∈ (l ++ [a]).take e.2) = decide (e.1 ∈ l.take e.2) := by
    intro e he
    have hplace : e.2 < l.length := by
      have := (List.mem_zipIdx he).2.1
      omega
    rw [List.take_append_of_le_length (Nat.le_of_lt hplace)]
  unfold laterOccurrences
  rw [List.zipIdx_append, List.filter_append, List.map_append, List.filter_congr hfront]
  by_cases ha : a ∈ l
  · simp [ha]
  · simp [ha]

theorem repeats_concat (seen l : List α) (a : α) :
    repeats seen (l ++ [a]) = repeats seen l ++ if a ∈ seen ∨ a ∈ l then [a] else [] := by
  induction l generalizing seen with
  | nil => simp [repeats]
  | cons b rest ih =>
    rw [List.cons_append, repeats, repeats]
    split
    · rename_i hseen
      rw [ih, List.cons_append]
      have hsame : (a ∈ seen ∨ a ∈ b :: rest) ↔ (a ∈ seen ∨ a ∈ rest) := by
        rw [List.mem_cons]
        constructor
        · rintro (ha | rfl | ha)
          · exact .inl ha
          · exact .inl hseen
          · exact .inr ha
        · exact Or.imp_right .inr
      simp only [hsame]
    · rw [ih]
      have hsame : (a ∈ seen ∨ a ∈ b :: rest) ↔ (a ∈ b :: seen ∨ a ∈ rest) := by
        rw [List.mem_cons, List.mem_cons, or_left_comm, or_assoc]
      simp only [hsame]

/-- What is repeated are the later occurrences, in their order. -/
theorem repeats_eq (l : List α) : repeats [] l = laterOccurrences l := by
  induction l using List.reverseRecOn with
  | nil => rfl
  | append_singleton l a ih =>
    rw [repeats_concat, laterOccurrences_concat, ih]
    simp only [List.not_mem_nil, false_or]

end

namespace AttachCategories

variable {r : AttachCategories} {t : Tables} {now : Instant} {fresh : Nat → Uuid}
  {sanitizer : Sanitizer}

theorem validate_of_empty (h : r.categories = []) :
    r.validate = .error (.invalidInput "category ids required") := by
  rw [validate, if_pos h]

theorem validate_of_repeats (h : ¬ r.categories.Nodup) :
    r.validate = .error (.invalidInput
      ("duplicate category ids: " ++ Error.listIds (laterOccurrences r.categories))) := by
  have hgiven : r.categories ≠ [] := by
    intro hnone
    exact h (hnone ▸ List.nodup_nil)
  have hlater : laterOccurrences r.categories ≠ [] := by
    rw [← repeats_eq]
    exact fun hnone => h (repeats_eq_nil_iff.mp hnone).1
  simp only [validate, if_neg hgiven, repeats_eq, if_neg hlater]

theorem validate_of_nodup (hgiven : r.categories ≠ []) (h : r.categories.Nodup) :
    r.validate = .ok () := by
  have hrepeats : repeats [] r.categories = [] := repeats_eq_nil_iff.mpr ⟨h, by simp⟩
  simp only [validate, if_neg hgiven, hrepeats, if_true]

/-! ## What a valid request comes to -/

/-- The categories of a request that are not there. -/
def unknown (r : AttachCategories) (t : Tables) : List Uuid :=
  r.categories.filter fun id => !t.categories.contains id

/-- Those of the identifiers that no category found has are those that none is stored under. -/
theorem unknown_eq (hwf : t.WellFormed) :
    (r.categories.filter fun id => id ∉ (r.categories.filterMap t.categories.get?).map (·.id)) =
      r.unknown t := by
  refine List.filter_congr fun id hid => ?_
  have hfound : id ∈ (r.categories.filterMap t.categories.get?).map (·.id) ↔
      t.categories.contains id = true := by
    rw [List.mem_map, Table.contains_iff]
    constructor
    · rintro ⟨c, hc, rfl⟩
      obtain ⟨k, -, hget⟩ := List.mem_filterMap.mp hc
      exact ⟨c, hwf.categories k c hget ▸ hget⟩
    · rintro ⟨c, hget⟩
      exact ⟨c, List.mem_filterMap.mpr ⟨id, hid, hget⟩, hwf.categories id c hget⟩
  simp only [hfound, Bool.not_eq_true, Bool.decide_eq_false]

/-- All links of a request are good when its version and its categories are there. -/
theorem joins_of_known (hversion : t.versions.contains r.version = true) (hknown : r.unknown t = [])
    (now : Instant) : ∀ l ∈ r.links now, t.Joins l := by
  intro l hl
  obtain ⟨id, hid, rfl⟩ := List.mem_map.mp hl
  have hthere := List.filter_eq_nil_iff.mp hknown id hid
  exact ⟨hversion, by simpa using hthere⟩

/-- The link that a request asks for under a key, if there is one. -/
theorem find?_links (r : AttachCategories) (now : Instant) (key : Uuid × Uuid) :
    ((r.links now).find? fun l => l.pair = key) =
      if key.1 = r.version ∧ key.2 ∈ r.categories then some ⟨key.1, key.2, now⟩ else none := by
  obtain ⟨version, category⟩ := key
  cases hfind : (r.links now).find? fun l => l.pair = (version, category) with
  | some l =>
    obtain ⟨id, hid, rfl⟩ := List.mem_map.mp (List.mem_of_find?_eq_some hfind)
    have hpair : (r.version, id) = (version, category) := by
      simpa [Link.pair] using List.find?_some hfind
    obtain ⟨rfl, rfl⟩ := Prod.mk.inj hpair
    exact (if_pos ⟨rfl, hid⟩).symm
  | none =>
    refine (if_neg ?_).symm
    rintro ⟨rfl, hid⟩
    have hnone := List.find?_eq_none.mp hfind _ (List.mem_map_of_mem hid)
    exact hnone (decide_eq_true rfl)

/-- A request that is not valid is refused before anything is done. -/
theorem perform_of_invalid {s : Surroundings} {w : World} {e : Error} (hfree : w.store.Free t)
    (hinvalid : r.validate = .error e) :
    (Operation.attach r).perform s sanitizer w = (.answered (.error e), w) := by
  refine perform_of_refuse hfree ?_
  simp only [Operation.plan, hinvalid]

/-- A valid request evaluates its body. -/
theorem effect_of_valid (hvalid : r.validate = .ok ()) :
    (Operation.attach r).effect sanitizer now fresh t =
      .settled t (((fun inserted => ⟨.done,
        some (.categoriesAttached r.version r.categories.length inserted)⟩) <$>
          Categories.attachIn r now).eval now fresh ⟨t, 0, []⟩) := by
  simp only [Operation.effect, Operation.plan, hvalid, Plan.effect]

/-- Without the version nothing else is looked at. -/
theorem effect_of_unstored (hvalid : r.validate = .ok ())
    (hversion : t.versions.get? r.version = none) :
    (Operation.attach r).effect sanitizer now fresh t =
      ⟨.error (.versionNotFound r.version), t, 1, 0, []⟩ := by
  have hlocked : t.call (.lockVersion r.version) = (.ok none, t) :=
    congrArg (fun version => (Except.ok version, t)) hversion
  have heval : (Categories.attachIn r now).eval now fresh ⟨t, 0, []⟩ =
      (.error (.versionNotFound r.version), ⟨t, 0, []⟩) := by
    refine (Task.eval_bind_ok (Task.eval_call_of hlocked)).trans ?_
    exact Task.eval_bind_error rfl
  rw [effect_of_valid hvalid, Task.eval_map, heval]
  rfl

/-- With the version there the categories are looked for, all at once. -/
theorem eval_attachIn_of_stored (hwf : t.WellFormed)
    (hversion : t.versions.contains r.version = true) :
    (Categories.attachIn r now).eval now fresh ⟨t, 0, []⟩ =
      if r.unknown t = [] then ((t.attach (r.links now)).1, ⟨(t.attach (r.links now)).2, 0, []⟩)
      else (.error (.categoriesNotFound (r.unknown t)), ⟨t, 0, []⟩) := by
  obtain ⟨version, hget⟩ := Table.contains_iff.mp hversion
  have hlocked : t.call (.lockVersion r.version) = (.ok (some version), t) :=
    congrArg (fun version => (Except.ok version, t)) hget
  refine (Task.eval_bind_ok (Task.eval_call_of hlocked)).trans ?_
  refine (Task.eval_bind_ok rfl).trans ?_
  refine (Task.eval_bind_ok (Task.eval_call_of rfl)).trans ?_
  dsimp only
  rw [unknown_eq hwf]
  by_cases hknown : r.unknown t = []
  · rw [if_pos hknown, if_neg (not_not.mpr hknown)]
    exact Task.eval_call_of rfl
  · rw [if_neg hknown, if_pos hknown]
    exact Task.eval_bind_error rfl

/-- Without some of the categories no link is added. -/
theorem effect_of_unknown (hwf : t.WellFormed) (hvalid : r.validate = .ok ())
    (hversion : t.versions.contains r.version = true) (hunknown : r.unknown t ≠ []) :
    (Operation.attach r).effect sanitizer now fresh t =
      ⟨.error (.categoriesNotFound (r.unknown t)), t, 1, 0, []⟩ := by
  rw [effect_of_valid hvalid, Task.eval_map, eval_attachIn_of_stored hwf hversion, if_neg hunknown]
  rfl

/-- With all of them there all links are added that are missing. -/
theorem effect_of_known (hwf : t.WellFormed) (hvalid : r.validate = .ok ())
    (hversion : t.versions.contains r.version = true) (hknown : r.unknown t = []) :
    (Operation.attach r).effect sanitizer now fresh t =
      ⟨.ok .done, (t.attach (r.links now)).2, 1, 0, [.categoriesAttached r.version
        r.categories.length (t.newPairs (r.links now)).card]⟩ := by
  have hcounted := Tables.attach_of_joins (joins_of_known hversion hknown now)
  rw [effect_of_valid hvalid, Task.eval_map, eval_attachIn_of_stored hwf hversion, if_pos hknown,
    hcounted]
  rfl

/-! ## What a request asks of the store -/

theorem granted_attachIn (r : AttachCategories) (now : Instant) (hwf : t.WellFormed) :
    (Categories.attachIn r now).run.Granted ⟨t, some []⟩ := by
  refine ⟨t.versions.get? r.version, ⟨t, some []⟩, rfl, ?_⟩
  cases hversion : t.versions.get? r.version with
  | none => exact trivial
  | some v =>
    have hstored : t.versions.contains r.version = true := Table.contains_iff.mpr ⟨v, hversion⟩
    refine ⟨r.categories.filterMap t.categories.get?, ⟨t, some []⟩, rfl, ?_⟩
    change Script.Granted (ExceptT.run (if _ then _ else _ : Task Nat)) _
    rw [unknown_eq hwf]
    by_cases hknown : r.unknown t = []
    · rw [if_neg (not_not.mpr hknown)]
      have hadded : (Transaction.attach ⟨t, []⟩ 0 (r.links now)).1 = .ok _ :=
        Transaction.attach_of_joins (joins_of_known hstored hknown now)
      exact ⟨_, _, congrArg (fun answer => Except.ok (answer, _)) hadded, trivial⟩
    · rw [if_pos hknown]
      exact trivial

/-- The store is asked for nothing that it could refuse. -/
theorem granted (r : AttachCategories) (sanitizer : Sanitizer) (hwf : t.WellFormed) :
    ((Operation.attach r).plan sanitizer).task.run.Granted ⟨t, none⟩ := by
  have hsound := (Operation.attach r).plan_sound sanitizer
  simp only [Operation.plan] at hsound ⊢
  cases hvalid : r.validate with
  | error e => exact trivial
  | ok u =>
    rw [hvalid] at hsound
    exact Plan.granted_change hsound fun now => (r.granted_attachIn now hwf).map _

end AttachCategories

/-! ## What becomes of a request -/

/-- What a request that names no category twice comes to when no fault strikes it. -/
theorem perform_attach_of_valid {s : Surroundings} {sanitizer : Sanitizer} {w : World} {t : Tables}
    {r : AttachCategories} (hfree : w.store.Free t) (hwf : t.WellFormed)
    (hvalid : r.validate = .ok ()) :
    let ran := (Operation.attach r).perform s sanitizer w
    let now := s.clock w.clockReads
    s.Calm w.trace ran.2.trace → ran.2.clockReads = w.clockReads + 1 ∧
      (t.versions.get? r.version = none →
        ran.1 = .answered (.error (.versionNotFound r.version)) ∧ ran.2.store.Free t) ∧
      (t.versions.contains r.version = true → r.unknown t ≠ [] →
        ran.1 = .answered (.error (.categoriesNotFound (r.unknown t))) ∧ ran.2.store.Free t) ∧
      (t.versions.contains r.version = true → r.unknown t = [] →
        ran.1 = .answered (.ok .done) ∧ ran.2.store.Free (t.attach (r.links now)).2) := by
  intro ran now hcalm
  cases perform_cases s sanitizer (.attach r) hfree with
  | struck hstruck _ _ => exact absurd hcalm hstruck
  | done _ hanswer hstore hclock _ _ =>
    refine ⟨?_, fun hversion => ?_, fun hversion hunknown => ?_, fun hversion hknown => ?_⟩
    · rw [r.effect_of_valid hvalid] at hclock
      refine hclock.trans (congrArg (w.clockReads + ·) ?_)
      rcases Task.eval _ _ _ _ with ⟨_ | _, _⟩ <;> rfl
    · rw [r.effect_of_unstored hvalid hversion] at hanswer hstore
      exact ⟨hanswer, hstore⟩
    · rw [r.effect_of_unknown hwf hvalid hversion hunknown] at hanswer hstore
      exact ⟨hanswer, hstore⟩
    · rw [r.effect_of_known hwf hvalid hversion hknown] at hanswer hstore
      exact ⟨hanswer, hstore⟩

/-- **Requests for categories.** Whatever was done before, with whatever surroundings: a request
that meets no fault comes to just one of these. If it names no category, or if it names one twice,
it is refused at once; in the second case the categories that it names again are told, in its order,
each time it does so. Otherwise the clock is read. If the version is not there, that is answered; if
it is, but some of the categories are not, these are told, in the order of the request. In all these
cases the tables stay as they are. In the last case the answer is that it is done: the link table
gains the links of the request that it did not have, made at the reading of the clock, and nothing
else changes. The store finds fault with none of these requests: all that it is asked is carried
out. -/
theorem attach_outcome (s s' : Surroundings) (sanitizer sanitizer' : Sanitizer)
    (ops : List Operation) (r : AttachCategories) :
    let w := (performAll s' sanitizer' ops World.initial).2
    let t := w.store.tables
    let ran := (Operation.attach r).perform s sanitizer w
    let now := s.clock w.clockReads
    let unknown := r.categories.filter fun id => !t.categories.contains id
    s.Calm w.trace ran.2.trace →
    (r.categories = [] →
      ran = (.answered (.error (.invalidInput "category ids required")), w)) ∧
    (¬ r.categories.Nodup →
      ran = (.answered (.error (.invalidInput
        ("duplicate category ids: " ++ Error.listIds (laterOccurrences r.categories)))), w)) ∧
    (r.categories ≠ [] → r.categories.Nodup → ran.2.clockReads = w.clockReads + 1 ∧
      (t.versions.get? r.version = none →
        ran.1 = .answered (.error (.versionNotFound r.version)) ∧ ran.2.store.Free t) ∧
      (t.versions.contains r.version = true → unknown ≠ [] →
        ran.1 = .answered (.error (.categoriesNotFound unknown)) ∧ ran.2.store.Free t) ∧
      (t.versions.contains r.version = true → unknown = [] →
        ran.1 = .answered (.ok .done) ∧ ∃ links, ran.2.store.Free { t with links } ∧
          ∀ key, links.get? key = (t.links.get? key).or
            (if key.1 = r.version ∧ key.2 ∈ r.categories then some ⟨key.1, key.2, now⟩
              else none))) ∧
    (∀ v ∈ (Operation.attach r).visits s sanitizer w, v.done = true) ∧
    ∀ id, ran.1 ≠ .answered (.error (.categoryNotFound id)) := by
  obtain ⟨t, hfree, hwf⟩ := performAll_wellFormed s' sanitizer' ops (w := World.initial) rfl .empty
  intro w t' ran now unknown hcalm
  obtain rfl : t' = t := congrArg Store.tables hfree
  have hempty (hnone : r.categories = []) : ran = (.answered (.error _), w) :=
    r.perform_of_invalid hfree (r.validate_of_empty hnone)
  have hrepeated (htwice : ¬ r.categories.Nodup) : ran = (.answered (.error _), w) :=
    r.perform_of_invalid hfree (r.validate_of_repeats htwice)
  have hrest (hgiven : r.categories ≠ []) (hnodup : r.categories.Nodup) :=
    perform_attach_of_valid hfree hwf (r.validate_of_nodup hgiven hnodup) hcalm
  refine ⟨hempty, hrepeated, fun hgiven hnodup => ?_,
    Operation.visits_of_granted hfree (r.granted sanitizer hwf) hcalm, fun id hanswer => ?_⟩
  · obtain ⟨hclock, hunstored, hunknown, hknown⟩ := hrest hgiven hnodup
    refine ⟨hclock, hunstored, hunknown, fun hversion hnone => ?_⟩
    have hlinks := r.joins_of_known hversion hnone now
    obtain ⟨hanswer, hstore⟩ := hknown hversion hnone
    refine ⟨hanswer, (t'.attach (r.links now)).2.links, ?_, fun key => ?_⟩
    · rw [← t'.attach_writes]
      exact hstore
    · rw [Tables.get?_links_attach hlinks, r.find?_links]
  · by_cases hgiven : r.categories = []
    · rw [hempty hgiven] at hanswer
      cases hanswer
    by_cases hnodup : r.categories.Nodup
    · obtain ⟨-, hunstored, hunknown, hknown⟩ := hrest hgiven hnodup
      cases hversion : t'.versions.get? r.version with
      | none => cases (hunstored hversion).1.symm.trans hanswer
      | some v =>
        have hstored : t'.versions.contains r.version = true :=
          Table.contains_iff.mpr ⟨v, hversion⟩
        by_cases hnone : r.unknown t' = []
        · cases (hknown hstored hnone).1.symm.trans hanswer
        · cases (hunknown hstored hnone).1.symm.trans hanswer
    · rw [hrepeated hnodup] at hanswer
      cases hanswer

/-- A version that is in one category is put into two. The link that it has stays as it is. -/
theorem attach_outcome_of_two :
    let s : Surroundings := .serving [] ((List.range 4).map .ofNat)
    let ops : List Operation := [.createPost ⟨"title", "text"⟩, .createCategory ⟨"news"⟩,
      .createCategory ⟨"sport"⟩, .attach ⟨.ofNat 1, [.ofNat 2]⟩]
    let w := (performAll s .identity ops World.initial).2
    let later : Instant := ⟨1, 0, by decide⟩
    let s' : Surroundings := .undisturbed (fun _ => later) .ofNat
    let r : AttachCategories := ⟨.ofNat 1, [.ofNat 3, .ofNat 2]⟩
    let ran := (Operation.attach r).perform s' .identity w
    s'.Calm w.trace ran.2.trace ∧ ran.1 = .answered (.ok .done) ∧
    ran.2.store.tables.links.get? (.ofNat 1, .ofNat 2) = some ⟨.ofNat 1, .ofNat 2, .epoch⟩ ∧
    ran.2.store.tables.links.get? (.ofNat 1, .ofNat 3) = some ⟨.ofNat 1, .ofNat 3, later⟩ := by
  intro s ops w later s' r ran
  let t := (performAll s .identity ops World.initial).2.store.tables
  have hcalm : s'.Calm w.trace ran.2.trace := Surroundings.calm_of_no_faults fun _ _ => rfl
  have hversion : (performAll s .identity ops World.initial).2.store.tables.versions.contains
      r.version = true := by decide +kernel
  have hknown : (r.categories.filter fun id => !(performAll s .identity ops
      World.initial).2.store.tables.categories.contains id) = [] := by decide +kernel
  have hthere : t.links.get? (.ofNat 1, .ofNat 2) = some ⟨.ofNat 1, .ofNat 2, .epoch⟩ := by
    decide +kernel
  have hmissing : t.links.get? (.ofNat 1, .ofNat 3) = none := by decide +kernel
  obtain ⟨-, -, hvalid, -⟩ := attach_outcome s' s .identity .identity ops r hcalm
  obtain ⟨-, -, -, hdone⟩ := hvalid (by decide) (by decide)
  obtain ⟨hanswer, links, hstore, hlinks⟩ := hdone hversion hknown
  have hwritten : ran.2.store.tables.links = links :=
    congrArg (fun store : Store => store.tables.links) hstore
  refine ⟨hcalm, hanswer, ?_, ?_⟩
  · rw [hwritten, hlinks, hthere, Option.some_or]
  · rw [hwritten, hlinks, hmissing, Option.none_or]
    decide

end Weblog
