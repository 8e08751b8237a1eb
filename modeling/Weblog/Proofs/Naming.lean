import Weblog.Proofs.Creation
import Weblog.Proofs.Shown
import Weblog.Proofs.Visits

/-!
# Names of categories

No two categories have the same name. A request for a new name is checked twice: the service looks
for a category of that name before it writes, and the store looks through all of them when it is
asked to write.

* `Tables.WellFormed.named_elsewhere_iff`, `Tables.WellFormed.isNameTaken_iff`: both checks find the
  same, since a name that is there is there once.
* `NameCategory.granted_create`, `NameCategory.granted_rename`: hence the check of the store never
  refuses what the service asks for.
* `categories_named`: what becomes of every request to make a category or to give it another name.
-/

namespace Weblog

/-! ## Names that are taken -/

/-- Some category has the name. -/
def Tables.Names (t : Tables) (name : String) : Prop :=
  ∃ key c, t.categories.get? key = some c ∧ c.name = name

/-- Some category under another identifier than this one has the name. -/
def Tables.NamesElsewhere (t : Tables) (id : Uuid) (name : String) : Prop :=
  ∃ key c, t.categories.get? key = some c ∧ c.name = name ∧ key ≠ id

namespace Tables

variable {t : Tables} {name : String} {id : Uuid}

/-- The service finds no category exactly if none has the name. -/
theorem categoryNamed?_eq_none_iff :
    categoryNamed? t.categories.rows name = none ↔ ¬ t.Names name := by
  unfold categoryNamed?
  rw [List.find?_eq_none]
  constructor
  · rintro hnone ⟨key, c, hget, hname⟩
    exact hnone c (Table.mem_rows.mpr ⟨key, hget⟩) (decide_eq_true hname)
  · rintro hnone c hc hname
    obtain ⟨key, hget⟩ := Table.mem_rows.mp hc
    exact hnone ⟨key, c, hget, of_decide_eq_true hname⟩

theorem not_namesElsewhere_of_not_names (id : Uuid) (h : ¬ t.Names name) :
    ¬ t.NamesElsewhere id name := by
  rintro ⟨key, c, hget, hname, -⟩
  exact h ⟨key, c, hget, hname⟩

namespace WellFormed

variable (hwf : t.WellFormed)

include hwf

/-- The check of the store. -/
theorem isNameTaken_iff :
    isNameTaken t.categories.rows name id = true ↔ t.NamesElsewhere id name := by
  unfold isNameTaken
  rw [List.any_eq_true]
  constructor
  · rintro ⟨c, hc, htaken⟩
    obtain ⟨key, hget⟩ := Table.mem_rows.mp hc
    obtain ⟨hname, hne⟩ := of_decide_eq_true htaken
    have hid : c.id = key := hwf.categories key c hget
    exact ⟨key, c, hget, hname, hid ▸ hne⟩
  · rintro ⟨key, c, hget, hname, hne⟩
    have hid : c.id = key := hwf.categories key c hget
    exact ⟨c, Table.mem_rows.mpr ⟨key, hget⟩, decide_eq_true ⟨hname, hid.symm ▸ hne⟩⟩

/-- The check of the service, which looks at one category of the name only. -/
theorem named_elsewhere_iff :
    ((categoryNamed? t.categories.rows name).any fun c => c.id ≠ id) = true ↔
      t.NamesElsewhere id name := by
  cases hfound : categoryNamed? t.categories.rows name with
  | none =>
    have hnone := not_namesElsewhere_of_not_names id (categoryNamed?_eq_none_iff.mp hfound)
    exact ⟨nofun, fun h => absurd h hnone⟩
  | some c =>
    obtain ⟨key, hget⟩ := Table.mem_rows.mp (List.mem_of_find?_eq_some hfound)
    have hname : c.name = name := by simpa using List.find?_some hfound
    have hid : c.id = key := hwf.categories key c hget
    rw [Option.any_some, decide_eq_true_iff]
    constructor
    · intro hne
      exact ⟨key, c, hget, hname, hid ▸ hne⟩
    · rintro ⟨key', d, hget', hname', hne⟩
      -- the category that was found is the only one of the name
      obtain ⟨rfl, rfl⟩ := hwf.eq_of_name hget hget' (hname.trans hname'.symm)
      exact hid.symm ▸ hne

theorem isNameTaken_eq_false (h : ¬ t.NamesElsewhere id name) :
    isNameTaken t.categories.rows name id = false :=
  Bool.eq_false_iff.mpr (mt hwf.isNameTaken_iff.mp h)

end WellFormed

/-! ## Calls that write categories -/

theorem call_createCategory (hwf : t.WellFormed) {c : Category}
    (hfree : ¬ t.NamesElsewhere c.id c.name) :
    t.call (.createCategory c) = (.ok (), t.withCategory c) := by
  simp only [call, hwf.isNameTaken_eq_false hfree, Bool.false_eq_true, if_false]

/-- A category that is there gets another name. -/
theorem call_updateCategory (hwf : t.WellFormed) {c : Category} (now : Instant)
    (hget : t.categories.get? id = some c) (hfree : ¬ t.NamesElsewhere id name) :
    t.call (.updateCategory (c.rename name now)) =
      (.ok (), t.withCategory (c.rename name now)) := by
  have hid : c.id = id := hwf.categories id c hget
  have hstored : t.categories.get? (c.rename name now).id = some c := hid.symm ▸ hget
  have huntaken : isNameTaken t.categories.rows (c.rename name now).name
      (c.rename name now).id = false := hwf.isNameTaken_eq_false (hid.symm ▸ hfree)
  simp only [call, huntaken, Bool.false_eq_true, if_false, hstored]
  rfl

end Tables

namespace NameCategory

variable {r : NameCategory} {id : Uuid} {t : Tables} {now : Instant} {fresh : Nat → Uuid}
  {sanitizer : Sanitizer}

/-! ## What a request for a category comes to -/

theorem cleanName_of_blank (h : sanitizer r.name = "") :
    Categories.cleanName sanitizer r = .error (.invalidInput "name required") := by
  simp [Categories.cleanName, h, blankFields, refuseBlank, Except.map]

theorem cleanName_of_given (h : sanitizer r.name ≠ "") :
    Categories.cleanName sanitizer r = .ok (sanitizer r.name) := by
  simp [Categories.cleanName, h, blankFields, refuseBlank, Except.map]

theorem effect_create (hgiven : sanitizer r.name ≠ "") :
    (Operation.createCategory r).effect sanitizer now fresh t =
      .settled t (((fun c => ⟨.category c, some (.categoryCreated c.id)⟩) <$>
        Categories.createIn (sanitizer r.name) now).eval now fresh ⟨t, 0, []⟩) := by
  simp only [Operation.effect, Operation.plan, cleanName_of_given hgiven, Plan.effect]

theorem effect_rename (hgiven : sanitizer r.name ≠ "") :
    (Operation.updateCategory id r).effect sanitizer now fresh t =
      .settled t (((fun c => ⟨.category c, none⟩) <$>
        Categories.renameIn id (sanitizer r.name) now).eval now fresh ⟨t, 0, []⟩) := by
  simp only [Operation.effect, Operation.plan, cleanName_of_given hgiven, Plan.effect]

theorem effect_create_of_taken (hgiven : sanitizer r.name ≠ "")
    (htaken : t.Names (sanitizer r.name)) :
    (Operation.createCategory r).effect sanitizer now fresh t =
      ⟨.error (.nameTaken (sanitizer r.name)), t, 1, 0, []⟩ := by
  have hfound : (categoryNamed? t.categories.rows (sanitizer r.name)).isSome = true := by
    rw [Option.isSome_iff_ne_none, ne_eq, Tables.categoryNamed?_eq_none_iff, not_not]
    exact htaken
  have heval : (Categories.createIn (sanitizer r.name) now).eval now fresh ⟨t, 0, []⟩ =
      (.error (.nameTaken (sanitizer r.name)), ⟨t, 0, []⟩) := by
    refine (Task.eval_bind_ok (Task.eval_call_of rfl)).trans ?_
    rw [if_pos hfound]
    exact Task.eval_bind_error rfl
  rw [effect_create hgiven, Task.eval_map, heval]
  rfl

theorem effect_create_of_free (hwf : t.WellFormed) (hgiven : sanitizer r.name ≠ "")
    (hfree : ¬ t.Names (sanitizer r.name)) :
    let c : Category := .new (fresh 0) (sanitizer r.name) now
    (Operation.createCategory r).effect sanitizer now fresh t =
      ⟨.ok (.category c), t.withCategory c, 1, 1, [.categoryCreated c.id]⟩ := by
  intro c
  have hnone : categoryNamed? t.categories.rows (sanitizer r.name) = none :=
    Tables.categoryNamed?_eq_none_iff.mpr hfree
  have hwritten : t.call (.createCategory c) = (.ok (), t.withCategory c) :=
    Tables.call_createCategory hwf (Tables.not_namesElsewhere_of_not_names _ hfree)
  have heval : (Categories.createIn (sanitizer r.name) now).eval now fresh ⟨t, 0, []⟩ =
      (.ok c, ⟨t.withCategory c, 1, []⟩) := by
    refine (Task.eval_bind_ok (Task.eval_call_of rfl)).trans ?_
    rw [if_neg (by simp [hnone])]
    refine (Task.eval_bind_ok rfl).trans ?_
    exact Task.eval_bind_ok (Task.eval_call_of hwritten)
  rw [effect_create hgiven, Task.eval_map, heval]
  rfl

theorem effect_rename_of_unknown (hgiven : sanitizer r.name ≠ "")
    (hunknown : t.categories.get? id = none) :
    (Operation.updateCategory id r).effect sanitizer now fresh t =
      ⟨.error (.categoryNotFound id), t, 1, 0, []⟩ := by
  have hlocked : t.call (.lockCategory id) = (.ok none, t) :=
    congrArg (fun category => (Except.ok category, t)) hunknown
  have heval : (Categories.renameIn id (sanitizer r.name) now).eval now fresh ⟨t, 0, []⟩ =
      (.error (.categoryNotFound id), ⟨t, 0, []⟩) := by
    refine (Task.eval_bind_ok (Task.eval_call_of hlocked)).trans ?_
    exact Task.eval_bind_error rfl
  rw [effect_rename hgiven, Task.eval_map, heval]
  rfl

section

variable {c : Category} (hget : t.categories.get? id = some c)

include hget

theorem call_lockCategory : t.call (.lockCategory id) = (.ok (some c), t) :=
  congrArg (fun category => (Except.ok category, t)) hget

theorem effect_rename_of_same (hgiven : sanitizer r.name ≠ "") (hsame : c.name = sanitizer r.name) :
    (Operation.updateCategory id r).effect sanitizer now fresh t =
      ⟨.error (.invalidInput "name is the same as before"), t, 1, 0, []⟩ := by
  have heval : (Categories.renameIn id (sanitizer r.name) now).eval now fresh ⟨t, 0, []⟩ =
      (.error (.invalidInput "name is the same as before"), ⟨t, 0, []⟩) := by
    refine (Task.eval_bind_ok (Task.eval_call_of (call_lockCategory hget))).trans ?_
    refine (Task.eval_bind_ok rfl).trans ?_
    rw [if_pos hsame]
    exact Task.eval_bind_error rfl
  rw [effect_rename hgiven, Task.eval_map, heval]
  rfl

theorem effect_rename_of_taken (hwf : t.WellFormed) (hgiven : sanitizer r.name ≠ "")
    (hother : c.name ≠ sanitizer r.name) (htaken : t.NamesElsewhere id (sanitizer r.name)) :
    (Operation.updateCategory id r).effect sanitizer now fresh t =
      ⟨.error (.nameTaken (sanitizer r.name)), t, 1, 0, []⟩ := by
  have heval : (Categories.renameIn id (sanitizer r.name) now).eval now fresh ⟨t, 0, []⟩ =
      (.error (.nameTaken (sanitizer r.name)), ⟨t, 0, []⟩) := by
    refine (Task.eval_bind_ok (Task.eval_call_of (call_lockCategory hget))).trans ?_
    refine (Task.eval_bind_ok rfl).trans ?_
    rw [if_neg hother]
    refine (Task.eval_bind_ok (Task.eval_call_of rfl)).trans ?_
    rw [if_pos (hwf.named_elsewhere_iff.mpr htaken)]
    exact Task.eval_bind_error rfl
  rw [effect_rename hgiven, Task.eval_map, heval]
  rfl

theorem effect_rename_of_free (hwf : t.WellFormed) (hgiven : sanitizer r.name ≠ "")
    (hother : c.name ≠ sanitizer r.name) (hfree : ¬ t.NamesElsewhere id (sanitizer r.name)) :
    let renamed := c.rename (sanitizer r.name) now
    (Operation.updateCategory id r).effect sanitizer now fresh t =
      ⟨.ok (.category renamed), t.withCategory renamed, 1, 0,
        [.categoryRenamed id renamed.name]⟩ := by
  intro renamed
  have hwritten : t.call (.updateCategory renamed) = (.ok (), t.withCategory renamed) :=
    Tables.call_updateCategory hwf now hget hfree
  have heval : (Categories.renameIn id (sanitizer r.name) now).eval now fresh ⟨t, 0, []⟩ =
      (.ok renamed, ⟨t.withCategory renamed, 0, [.categoryRenamed id renamed.name]⟩) := by
    refine (Task.eval_bind_ok (Task.eval_call_of (call_lockCategory hget))).trans ?_
    refine (Task.eval_bind_ok rfl).trans ?_
    rw [if_neg hother]
    refine (Task.eval_bind_ok (Task.eval_call_of rfl)).trans ?_
    rw [if_neg (mt hwf.named_elsewhere_iff.mp hfree)]
    exact Task.eval_bind_ok (Task.eval_call_of hwritten)
  rw [effect_rename hgiven, Task.eval_map, heval]
  rfl

end

/-! ## What a request asks of the store -/

theorem granted_createIn (name : String) (now : Instant) (hwf : t.WellFormed) :
    (Categories.createIn name now).run.Granted ⟨t, some []⟩ := by
  refine ⟨categoryNamed? t.categories.rows name, ⟨t, some []⟩, rfl, ?_⟩
  change Script.Granted (ExceptT.run (if _ then _ else _ : Task Category)) _
  by_cases hnamed : t.Names name
  · have hfound : (categoryNamed? t.categories.rows name).isSome = true := by
      rw [Option.isSome_iff_ne_none, ne_eq, Tables.categoryNamed?_eq_none_iff, not_not]
      exact hnamed
    rw [if_pos hfound]
    exact trivial
  · have hnone : categoryNamed? t.categories.rows name = none :=
      Tables.categoryNamed?_eq_none_iff.mpr hnamed
    rw [if_neg (by simp [hnone])]
    intro id
    have hwritten := Tables.call_createCategory (c := .new id name now) hwf
      (Tables.not_namesElsewhere_of_not_names id hnamed)
    obtain ⟨store', hstore⟩ := Store.perform_call_of_ok (congrArg Prod.fst hwritten)
    exact ⟨(), store', hstore, trivial⟩

theorem granted_renameIn (id : Uuid) (name : String) (now : Instant) (hwf : t.WellFormed) :
    (Categories.renameIn id name now).run.Granted ⟨t, some []⟩ := by
  refine ⟨t.categories.get? id, ⟨t, some []⟩, rfl, ?_⟩
  cases hget : t.categories.get? id with
  | none => exact trivial
  | some c =>
    change Script.Granted (ExceptT.run (if _ then _ else _ : Task Category)) _
    by_cases hsame : c.name = name
    · rw [if_pos hsame]
      exact trivial
    · rw [if_neg hsame]
      refine ⟨categoryNamed? t.categories.rows name, ⟨t, some []⟩, rfl, ?_⟩
      change Script.Granted (ExceptT.run (if _ then _ else _ : Task Category)) _
      by_cases htaken : t.NamesElsewhere id name
      · rw [if_pos (hwf.named_elsewhere_iff.mpr htaken)]
        exact trivial
      · rw [if_neg (mt hwf.named_elsewhere_iff.mp htaken)]
        have hwritten := Tables.call_updateCategory hwf now hget htaken
        obtain ⟨store', hstore⟩ := Store.perform_call_of_ok (congrArg Prod.fst hwritten)
        exact ⟨(), store', hstore, trivial⟩

theorem granted_create (r : NameCategory) (sanitizer : Sanitizer) (hwf : t.WellFormed) :
    ((Operation.createCategory r).plan sanitizer).task.run.Granted ⟨t, none⟩ := by
  have hsound := (Operation.createCategory r).plan_sound sanitizer
  simp only [Operation.plan] at hsound ⊢
  cases hname : Categories.cleanName sanitizer r with
  | error e => exact trivial
  | ok name =>
    rw [hname] at hsound
    exact Plan.granted_change hsound fun now => (granted_createIn name now hwf).map _

theorem granted_rename (r : NameCategory) (id : Uuid) (sanitizer : Sanitizer) (hwf : t.WellFormed) :
    ((Operation.updateCategory id r).plan sanitizer).task.run.Granted ⟨t, none⟩ := by
  have hsound := (Operation.updateCategory id r).plan_sound sanitizer
  simp only [Operation.plan] at hsound ⊢
  cases hname : Categories.cleanName sanitizer r with
  | error e => exact trivial
  | ok name =>
    rw [hname] at hsound
    exact Plan.granted_change hsound fun now => (granted_renameIn id name now hwf).map _

/-! ## What becomes of a request -/

section

variable {s : Surroundings} {w : World} (hfree : w.store.Free t) (hwf : t.WellFormed)

include hfree

/-- A request that names nothing is refused before anything is done. -/
theorem perform_of_blank (id : Uuid) (hblank : sanitizer r.name = "") :
    (Operation.createCategory r).perform s sanitizer w =
        (.answered (.error (.invalidInput "name required")), w) ∧
      (Operation.updateCategory id r).perform s sanitizer w =
        (.answered (.error (.invalidInput "name required")), w) := by
  constructor
  · refine perform_of_refuse hfree ?_
    simp only [Operation.plan, cleanName_of_blank hblank]
  · refine perform_of_refuse hfree ?_
    simp only [Operation.plan, cleanName_of_blank hblank]

include hwf

/-- A request to make a category comes to an error, or to a new category. -/
theorem perform_create_of_given (hgiven : sanitizer r.name ≠ "") :
    let ran := (Operation.createCategory r).perform s sanitizer w
    let c : Category := .new (s.ids w.idsUsed) (sanitizer r.name) (s.clock w.clockReads)
    s.Calm w.trace ran.2.trace →
      (t.Names (sanitizer r.name) →
        ran.1 = .answered (.error (.nameTaken (sanitizer r.name))) ∧ ran.2.store.Free t) ∧
      (¬ t.Names (sanitizer r.name) →
        ran.1 = .answered (.ok (.category c)) ∧ ran.2.store.Free (t.withCategory c)) := by
  intro ran c hcalm
  have hperformed := perform_of_calm hfree hcalm
  constructor
  · intro htaken
    rw [effect_create_of_taken hgiven htaken] at hperformed
    exact hperformed
  · intro hunnamed
    rw [effect_create_of_free hwf hgiven hunnamed] at hperformed
    exact hperformed

/-- A request to give a category another name comes to one of three errors, or to the name. -/
theorem perform_rename_of_given (hgiven : sanitizer r.name ≠ "") :
    let ran := (Operation.updateCategory id r).perform s sanitizer w
    s.Calm w.trace ran.2.trace →
      (t.categories.get? id = none →
        ran.1 = .answered (.error (.categoryNotFound id)) ∧ ran.2.store.Free t) ∧
      ∀ c, t.categories.get? id = some c →
        (c.name = sanitizer r.name →
          ran.1 = .answered (.error (.invalidInput "name is the same as before")) ∧
            ran.2.store.Free t) ∧
        (c.name ≠ sanitizer r.name → t.NamesElsewhere id (sanitizer r.name) →
          ran.1 = .answered (.error (.nameTaken (sanitizer r.name))) ∧ ran.2.store.Free t) ∧
        (c.name ≠ sanitizer r.name → ¬ t.NamesElsewhere id (sanitizer r.name) →
          let c' := c.rename (sanitizer r.name) (s.clock w.clockReads)
          ran.1 = .answered (.ok (.category c')) ∧ ran.2.store.Free (t.withCategory c')) := by
  intro ran hcalm
  have hperformed := perform_of_calm hfree hcalm
  constructor
  · intro hunknown
    rw [effect_rename_of_unknown hgiven hunknown] at hperformed
    exact hperformed
  · intro c hget
    refine ⟨fun hsame => ?_, fun hother htaken => ?_, fun hother hunnamed => ?_⟩
    · rw [effect_rename_of_same hget hgiven hsame] at hperformed
      exact hperformed
    · rw [effect_rename_of_taken hget hwf hgiven hother htaken] at hperformed
      exact hperformed
    · rw [effect_rename_of_free hget hwf hgiven hother hunnamed] at hperformed
      exact hperformed

end

end NameCategory

/-- **Names of categories.** Whatever was done before, with whatever surroundings: no two categories
have the same name, and none will after one more request, even if a fault strikes it. A request to
make a category that meets no fault is refused if the name is blank, and else if a category has the
name already. Otherwise a category of that name is written under the next identifier, and added if
that is not in use; nothing else changes. A request to give a category another name is refused if
the name is blank, else if the category is not there, else if that is its name, else if another one
has it. Otherwise its name and the time of its last change are written and nothing else changes, and
every post that was shown with it is shown with its new name, in the place in the order that this
name has. Nothing that these requests ask of the store is refused there: the check of the store
finds no name taken that the service found free. -/
theorem categories_named (s s' : Surroundings) (sanitizer sanitizer' : Sanitizer)
    (ops : List Operation) (r : NameCategory) (id : Uuid) :
    let w := (performAll s' sanitizer' ops World.initial).2
    let t := w.store.tables
    let name := sanitizer r.name
    let now := s.clock w.clockReads
    let fresh := s.ids w.idsUsed
    let created := (Operation.createCategory r).perform s sanitizer w
    let renamed := (Operation.updateCategory id r).perform s sanitizer w
    (t.categories.Distinct Category.name ∧
      created.2.store.tables.categories.Distinct Category.name ∧
      renamed.2.store.tables.categories.Distinct Category.name) ∧
    (s.Calm w.trace created.2.trace →
      (name = "" → created = (.answered (.error (.invalidInput "name required")), w)) ∧
      (name ≠ "" → t.Names name →
        created.1 = .answered (.error (.nameTaken name)) ∧ created.2.store.Free t) ∧
      (name ≠ "" → ¬ t.Names name →
        let c : Category := { id := fresh, name, created := now, updated := now }
        created.1 = .answered (.ok (.category c)) ∧ ∃ categories,
          created.2.store.Free { t with categories } ∧ t.categories.Wrote categories fresh c ∧
          (t.categories.get? fresh = none → t.categories.Added categories fresh c)) ∧
      ∀ v ∈ (Operation.createCategory r).visits s sanitizer w, v.done = true) ∧
    (s.Calm w.trace renamed.2.trace →
      (name = "" → renamed = (.answered (.error (.invalidInput "name required")), w)) ∧
      (name ≠ "" → t.categories.get? id = none →
        renamed.1 = .answered (.error (.categoryNotFound id)) ∧ renamed.2.store.Free t) ∧
      (name ≠ "" → ∀ c, t.categories.get? id = some c →
        (c.name = name →
          renamed.1 = .answered (.error (.invalidInput "name is the same as before")) ∧
            renamed.2.store.Free t) ∧
        (c.name ≠ name → t.NamesElsewhere id name →
          renamed.1 = .answered (.error (.nameTaken name)) ∧ renamed.2.store.Free t) ∧
        (c.name ≠ name → ¬ t.NamesElsewhere id name →
          let c' : Category := { c with name, updated := now }
          renamed.1 = .answered (.ok (.category c')) ∧
          (∃ categories, renamed.2.store.Free { t with categories } ∧
            t.categories.Wrote categories id c') ∧
          ∀ (look : Surroundings) (post : Uuid) (d : PostDetail),
            (∀ method n, look.faults method n = none) →
            ((Operation.getPost post).perform look sanitizer w).1 = .answered (.ok (.detail d)) →
            ((Operation.getPost post).perform look sanitizer renamed.2).1 =
              .answered (.ok (.detail (d.withCategory c'))))) ∧
      ∀ v ∈ (Operation.updateCategory id r).visits s sanitizer w, v.done = true) := by
  obtain ⟨t, hfree, hwf⟩ := performAll_wellFormed s' sanitizer' ops (w := World.initial) rfl .empty
  intro w t' name now fresh created renamed
  obtain rfl : t' = t := congrArg Store.tables hfree
  have hwellFormed (op : Operation) := perform_wellFormed s sanitizer op hfree hwf
  refine ⟨⟨hwf.names, (hwellFormed _).names, (hwellFormed _).names⟩,
    fun hcalm => ?_, fun hcalm => ?_⟩
  · have hgranted := NameCategory.granted_create r sanitizer hwf
    refine ⟨fun hblank => (NameCategory.perform_of_blank hfree id hblank).1,
      fun hgiven => (NameCategory.perform_create_of_given hfree hwf hgiven hcalm).1,
      fun hgiven hunnamed => ?_, Operation.visits_of_granted hfree hgranted hcalm⟩
    obtain ⟨hanswer, hstore⟩ :=
      (NameCategory.perform_create_of_given hfree hwf hgiven hcalm).2 hunnamed
    exact ⟨hanswer, _, hstore, Table.wrote_insert _ _ _,
      fun hunused => Table.added_insert _ hunused⟩
  · have hgranted := NameCategory.granted_rename r id sanitizer hwf
    refine ⟨fun hblank => (NameCategory.perform_of_blank hfree id hblank).2,
      fun hgiven => (NameCategory.perform_rename_of_given hfree hwf hgiven hcalm).1,
      fun hgiven c hget => ?_, Operation.visits_of_granted hfree hgranted hcalm⟩
    obtain ⟨hsame, htaken, hrest⟩ :=
      (NameCategory.perform_rename_of_given hfree hwf hgiven hcalm).2 c hget
    refine ⟨hsame, htaken, fun hother hunnamed => ?_⟩
    intro c'
    obtain ⟨hanswer, hstore⟩ := hrest hother hunnamed
    have hid : c.id = id := hwf.categories id c hget
    have hwritten : t'.categories.Wrote (t'.withCategory c').categories id c' :=
      hid ▸ Table.wrote_insert _ c'.id c'
    refine ⟨hanswer, ⟨_, hstore, hwritten⟩, fun look post d hquiet hbefore => ?_⟩
    have hlook {w₁ : World} {t₁ : Tables} (hfree₁ : w₁.store.Free t₁) :=
      perform_getPost look sanitizer post hfree₁ (Surroundings.calm_of_no_faults hquiet)
    have htables : renamed.2.store.tables = t'.withCategory c' := congrArg Store.tables hstore
    have hwf' : (t'.withCategory c').WellFormed := htables ▸ hwellFormed (.updateCategory id r)
    have hshown : t'.shown post = .ok (.detail d) :=
      Outcome.answered.inj ((hlook hfree).symm.trans hbefore)
    have hafter := hwf.shown_rewritten (c := c') hwf' (hid.symm ▸ hget) hshown
    exact (hlook hstore).trans (congrArg Outcome.answered hafter)

/-- A post is shown in two categories. When the first is given a later name, the other one comes
first. -/
theorem categories_named_of_two :
    let s : Surroundings := .serving [] ((List.range 4).map .ofNat)
    let ops : List Operation := [.createPost ⟨"title", "text"⟩, .createCategory ⟨"news"⟩,
      .createCategory ⟨"sport"⟩, .attach ⟨.ofNat 1, [.ofNat 2, .ofNat 3]⟩]
    let w := (performAll s .identity ops World.initial).2
    let later : Instant := ⟨1, 0, by decide⟩
    let s' : Surroundings := .undisturbed (fun _ => later) fun _ => .ofNat 4
    let created := (Operation.createCategory ⟨"travel"⟩).perform s' .identity w
    let renamed := (Operation.updateCategory (.ofNat 2) ⟨"travel"⟩).perform s' .identity w
    let news : Category := .new (.ofNat 2) "news" .epoch
    let sport : Category := .new (.ofNat 3) "sport" .epoch
    let row : CurrentPost :=
      .of ⟨.ofNat 0, some (.ofNat 1), .epoch, .epoch⟩
        (.firstDraft (.ofNat 1) (.ofNat 0) "title" "text" .epoch)
    (s'.Calm w.trace created.2.trace ∧ s'.Calm w.trace renamed.2.trace) ∧
    created.1 = .answered (.ok (.category (.new (.ofNat 4) "travel" later))) ∧
    renamed.1 = .answered (.ok (.category (news.rename "travel" later))) ∧
    ((Operation.getPost (.ofNat 0)).perform s' .identity w).1 =
      .answered (.ok (.detail (.of row [news, sport]))) ∧
    ((Operation.getPost (.ofNat 0)).perform s' .identity renamed.2).1 =
      .answered (.ok (.detail (.of row [sport, news.rename "travel" later]))) := by
  intro s ops w later s' created renamed news sport row
  let t := (performAll s .identity ops World.initial).2.store.tables
  have hquiet : ∀ method n, s'.faults method n = none := fun _ _ => rfl
  have hcalm : s'.Calm w.trace created.2.trace := Surroundings.calm_of_no_faults hquiet
  have hcalm' : s'.Calm w.trace renamed.2.trace := Surroundings.calm_of_no_faults hquiet
  have hnews : t.categories.get? (.ofNat 2) = some news := by decide +kernel
  have hunnamed : categoryNamed? t.categories.rows "travel" = none := by decide +kernel
  have hfree := Tables.categoryNamed?_eq_none_iff.mp hunnamed
  have hrow : t.currentPost? (.ofNat 0) = some row := by decide +kernel
  have hfound : ((t.linksOf row.version).filterMap fun l => t.categories.get? l.category) =
      [news, sport] := by decide +kernel
  have hshown : ((Operation.getPost (.ofNat 0)).perform s' .identity w).1 =
      .answered (.ok (.detail (.of row [news, sport]))) := by
    obtain ⟨t', hstore⟩ := performAll_free s .identity ops (w := World.initial) rfl
    obtain rfl : t' = t := (congrArg Store.tables hstore).symm
    rw [perform_getPost s' .identity (.ofNat 0) hstore (Surroundings.calm_of_no_faults hquiet)]
    exact congrArg Outcome.answered (Tables.shown_of_found hrow (.of_eq hfound) (by decide))
  obtain ⟨-, hcreate, hrename⟩ :=
    categories_named s' s .identity .identity ops ⟨"travel"⟩ (.ofNat 2)
  obtain ⟨-, -, hcreated, -⟩ := hcreate hcalm
  obtain ⟨-, -, hrest, -⟩ := hrename hcalm'
  obtain ⟨-, -, hrenamed⟩ := hrest (by decide) news hnews
  obtain ⟨hanswer, -, hposts⟩ :=
    hrenamed (by decide) (Tables.not_namesElsewhere_of_not_names _ hfree)
  have hsorted : sortByName [news.rename "travel" later, sport] =
      [sport, news.rename "travel" later] := sortByName_eq (.swap _ _ _) (by decide)
  have hrewritten : (PostDetail.of row [news, sport]).withCategory (news.rename "travel" later) =
      .of row [sport, news.rename "travel" later] :=
    congrArg (PostDetail.of row) hsorted
  refine ⟨⟨hcalm, hcalm'⟩, (hcreated (by decide) hfree).1, hanswer, hshown, ?_⟩
  exact hrewritten ▸ hposts s' (.ofNat 0) _ hquiet hshown

end Weblog
