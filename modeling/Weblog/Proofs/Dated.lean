import Weblog.Proofs.Blog.Timeline
import Weblog.Proofs.Naming
import Weblog.Proofs.Store.Attach

/-!
# The times of rows

Rows carry the readings of the clock at which they were made and changed. When these readings do not
go back and no identifier is given twice, nothing is dated before what it rests on: a category was
not changed before it was made, and a link not made before its version and its category.

* `Transition.dated`: what an operation makes of the times of rows, at a reading that is not before
  them.
* `World.Kept.performAll`: the times of rows after a run.
-/

namespace Weblog

/-! ## Times in tables -/

/-- The times in the tables were past, and none is before one that it rests on. -/
structure Tables.Dated (past : Instant → Prop) (t : Tables) : Prop where
  versions : ∀ id v, t.versions.get? id = some v → past v.created
  categories : ∀ id c, t.categories.get? id = some c → past c.updated ∧ c.created ≤ c.updated
  linkedVersions : ∀ key l, t.links.get? key = some l →
    ∀ v, t.versions.get? l.version = some v → v.created ≤ l.created
  linkedCategories : ∀ key l, t.links.get? key = some l →
    ∀ c, t.categories.get? l.category = some c → c.created ≤ l.created

namespace Tables.Dated

theorem empty (past : Instant → Prop) : Tables.empty.Dated past where
  versions := by intro id v hget; cases hget
  categories := by intro id c hget; cases hget
  linkedVersions := by intro key l hget; cases hget
  linkedCategories := by intro key l hget; cases hget

variable {past past' : Instant → Prop} {t : Tables} (h : t.Dated past)

include h

theorem mono (hpast : ∀ x, past x → past' x) : t.Dated past' :=
  { h with
    versions := fun id v hget => hpast _ (h.versions id v hget)
    categories := fun id c hget => (h.categories id c hget).imp_left (hpast _) }

/-- A category was made in the past, too. -/
theorem created_le {now : Instant} (hnow : ∀ x, past x → x ≤ now) {id : Uuid} {c : Category}
    (hget : t.categories.get? id = some c) : c.created ≤ now := by
  obtain ⟨hpast, hle⟩ := h.categories id c hget
  exact Instant.le_trans hle (hnow _ hpast)

theorem withPost (p : Post) : (t.withPost p).Dated past :=
  { h with }

/-- A version may be written that is not later than its links. -/
theorem withVersion {v : Version} (hpast : past v.created)
    (hlinks : ∀ key l, t.links.get? key = some l → l.version = v.id → v.created ≤ l.created) :
    (t.withVersion v).Dated past := by
  refine { h with versions := fun id w hget => ?_, linkedVersions := fun key l hl w hget => ?_ }
  · rcases Table.get?_insert_cases hget with ⟨-, rfl⟩ | ⟨-, hget⟩
    · exact hpast
    · exact h.versions id w hget
  · rcases Table.get?_insert_cases hget with ⟨hid, rfl⟩ | ⟨-, hget⟩
    · exact hlinks key l hl hid
    · exact h.linkedVersions key l hl w hget

/-- A category may be written that is not later than its links. -/
theorem withCategory {c : Category} (hpast : past c.updated) (hle : c.created ≤ c.updated)
    (hlinks : ∀ key l, t.links.get? key = some l → l.category = c.id → c.created ≤ l.created) :
    (t.withCategory c).Dated past := by
  refine { h with categories := fun id d hget => ?_, linkedCategories := fun key l hl d hget => ?_ }
  · rcases Table.get?_insert_cases hget with ⟨-, rfl⟩ | ⟨-, hget⟩
    · exact ⟨hpast, hle⟩
    · exact h.categories id d hget
  · rcases Table.get?_insert_cases hget with ⟨hid, rfl⟩ | ⟨-, hget⟩
    · exact hlinks key l hl hid
    · exact h.linkedCategories key l hl d hget

theorem withoutVersion (id : Uuid) : (t.withoutVersion id).Dated past where
  versions := fun id v hget => h.versions id v (Table.get?_of_erase hget)
  categories := h.categories
  linkedVersions := fun key l hl v hget =>
    h.linkedVersions key l (Table.get?_of_eraseWhere hl).2 v (Table.get?_of_erase hget)
  linkedCategories := fun key l hl => h.linkedCategories key l (Table.get?_of_eraseWhere hl).2

/-- Links may be added that are made now. -/
theorem attach {now : Instant} {links : List Link} (hlinks : ∀ l ∈ links, t.Joins l)
    (hnow : ∀ x, past x → x ≤ now) (hmade : ∀ l ∈ links, l.created = now) :
    (t.attach links).2.Dated past := by
  have hnew : ∀ key l, (t.attach links).2.links.get? key = some l →
      t.links.get? key = some l ∨ l.created = now := by
    intro key l hget
    rw [Tables.get?_links_attach hlinks] at hget
    rcases Option.or_eq_some_iff.mp hget with hstored | ⟨-, hfound⟩
    · exact .inl hstored
    · exact .inr (hmade l (List.mem_of_find?_eq_some hfound))
  rw [t.attach_writes links]
  refine { h with linkedVersions := fun key l hl v hget => ?_,
                  linkedCategories := fun key l hl c hget => ?_ }
  · rcases hnew key l hl with hstored | hmade
    · exact h.linkedVersions key l hstored v hget
    · rw [hmade]
      exact hnow _ (h.versions _ v hget)
  · rcases hnew key l hl with hstored | hmade
    · exact h.linkedCategories key l hstored c hget
    · rw [hmade]
      exact h.created_le hnow hget

end Tables.Dated

/-! ## What operations make of them -/

namespace Transition

variable {sanitizer : Sanitizer} {now : Instant} {fresh : Nat → Uuid} {t t' : Tables}
  {op : Operation} {reply : Reply} {events : List Event} {past past' : Instant → Prop}

/-- **Times of rows.** At a reading of the clock that is not before the times in the tables, an
operation leaves none before one that it rests on, if a new category does not replace another. -/
theorem dated (h : Transition sanitizer now fresh t op reply t' events) (hwf : t.WellFormed)
    (hdated : t.Dated past) (hnow : ∀ x, past x → x ≤ now) (hpast : ∀ x, past x → past' x)
    (hpresent : past' now)
    (hunused : ∀ r, op = .createCategory r → t.categories.get? (fresh 0) = none) :
    t'.Dated past' := by
  have hdated' := hdated.mono hpast
  -- a new version has no links, and one that is written anew keeps its time
  have hstart {v : Version} (hv : t.versions.get? v.id = none) (hcreated : v.created = now) :
      (t.withVersion v).Dated past' := by
    refine hdated'.withVersion (hcreated ▸ hpresent) fun key l hl hversion => ?_
    have hpair : l.pair = key := hwf.links key l hl
    have hkey : key.1 = v.id := (congrArg Prod.fst hpair).symm.trans hversion
    cases (hwf.get?_links_of_unused hv hkey).symm.trans hl
  have hrewrite {v latest : Version} {id : Uuid}
      (hlatest : latestVersion? t.versions.rows id = some latest) (hid : v.id = latest.id)
      (hcreated : v.created = latest.created) : (t.withVersion v).Dated past' := by
    have hstored := hwf.get?_latest hlatest
    refine hdated'.withVersion (hcreated ▸ hdated'.versions _ _ hstored) fun key l hl hversion => ?_
    rw [hcreated]
    exact hdated'.linkedVersions key l hl latest ((hversion.trans hid).symm ▸ hstored)
  cases h with
  | look _ => exact hdated'
  | start hv _ _ _ hnew =>
    subst hv
    exact (hstart hnew rfl).withPost _
  | amend hlatest _ hv =>
    subst hv
    exact hrewrite hlatest rfl rfl
  | stack _ _ _ hv hnew =>
    subst hv
    exact (hstart hnew rfl).withPost _
  | publish _ hlatest _ hv =>
    subst hv
    refine Tables.Dated.withPost ?_ _
    exact hrewrite hlatest rfl rfl
  | drop _ _ _ _ => exact (hdated'.withoutVersion _).withPost _
  | @createCategory r c hc _ _ =>
    subst hc
    refine hdated'.withCategory hpresent (Instant.le_refl _) fun key l hl hcategory => ?_
    -- nothing can be linked to a category that is not there
    obtain ⟨d, hd⟩ := Table.contains_iff.mp (hwf.linkedCategories key l hl)
    rw [hcategory] at hd
    cases hd.symm.trans (hunused r rfl)
  | @rename id r before c hbefore hid hc _ _ _ =>
    subst hc
    have hle : before.created ≤ now := hdated.created_le hnow hbefore
    refine hdated'.withCategory hpresent hle fun key l hl hcategory => ?_
    exact hdated'.linkedCategories key l hl before ((hcategory.trans hid).symm ▸ hbefore)
  | @attach r _ inserted _ _ hattach =>
    have hwritten : (t.attach (r.links now)).2 = t' := congrArg Prod.snd hattach
    have hlinks := (Tables.attach_eq_ok_iff.mp (congrArg Prod.fst hattach)).1
    refine hwritten ▸ (hdated.attach hlinks hnow fun l hl => ?_).mono hpast
    obtain ⟨category, -, rfl⟩ := List.mem_map.mp hl
    rfl

/-- A category that was not there before is under the next identifier. -/
theorem known (h : Transition sanitizer now fresh t op reply t' events) {id : Uuid} {c : Category}
    (hget : t'.categories.get? id = some c) :
    (∃ d, t.categories.get? id = some d) ∨ (∃ r, op = .createCategory r) ∧ id = fresh 0 := by
  cases h with
  | look _ | start _ _ _ _ _ | amend _ _ _ | stack _ _ _ _ _ | publish _ _ _ _ | drop _ _ _ _ =>
    exact .inl ⟨c, hget⟩
  | @createCategory r d hd _ _ =>
    rcases Table.get?_insert_cases hget with ⟨hid, -⟩ | ⟨-, hget⟩
    · exact .inr ⟨⟨r, rfl⟩, hid.trans (congrArg Category.id hd)⟩
    · exact .inl ⟨c, hget⟩
  | @rename id' r before d hbefore hid hd _ _ _ =>
    rcases Table.get?_insert_cases hget with ⟨hkey, -⟩ | ⟨-, hget⟩
    · have hsame : id = id' := hkey.trans ((congrArg Category.id hd).trans hid)
      exact .inl ⟨before, hsame ▸ hbefore⟩
    · exact .inl ⟨c, hget⟩
  | @attach r _ inserted _ _ hattach =>
    have hwritten : (t.attach (r.links now)).2 = t' := congrArg Prod.snd hattach
    rw [← hwritten, t.attach_writes] at hget
    exact .inl ⟨c, hget⟩

end Transition

/-! ## What operations use up -/

/-- A run only goes on in the readings of the clock and in the identifiers. -/
theorem Script.counters_run {α : Type} (s : Surroundings) (x : Script α) (w : World) :
    w.clockReads ≤ (x.run s w).2.clockReads ∧ w.idsUsed ≤ (x.run s w).2.idsUsed := by
  induction x generalizing w with
  | done a => exact ⟨Nat.le_refl _, Nat.le_refl _⟩
  | readClock next ih =>
    obtain ⟨hclock, hids⟩ := ih (s.clock w.clockReads) { w with clockReads := w.clockReads + 1 }
    exact ⟨Nat.le_of_succ_le hclock, hids⟩
  | takeId next ih =>
    obtain ⟨hclock, hids⟩ := ih (s.ids w.idsUsed) { w with idsUsed := w.idsUsed + 1 }
    exact ⟨hclock, Nat.le_of_succ_le hids⟩
  | report e rest ih => exact ih { w with events := e :: w.events }
  | ask a next ih =>
    simp only [run]
    cases s.faults a.method (w.uses a.method) with
    | none =>
      cases w.store.perform a with
      | ok answered => exact ih _ { w with trace := a :: w.trace, store := answered.2 }
      | error refusal => exact ⟨Nat.le_refl _, Nat.le_refl _⟩
    | some fault =>
      cases fault with
      | fails e events =>
        have hfail : ∀ w : World, (w.fail a events).clockReads = w.clockReads ∧
            (w.fail a events).idsUsed = w.idsUsed := by
          intro w
          cases a <;> exact ⟨rfl, rfl⟩
        obtain ⟨hclock, hids⟩ := hfail { w with trace := a :: w.trace }
        obtain ⟨hclock', hids'⟩ := ih (.error e) ({ w with trace := a :: w.trace }.fail a events)
        exact ⟨Nat.le_trans (Nat.le_of_eq hclock.symm) hclock',
          Nat.le_trans (Nat.le_of_eq hids.symm) hids'⟩
      | panics => exact ⟨Nat.le_refl _, Nat.le_refl _⟩
      | hangs => exact ⟨Nat.le_refl _, Nat.le_refl _⟩

section

variable (s : Surroundings) (sanitizer : Sanitizer)

theorem counters_perform (op : Operation) (w : World) :
    w.clockReads ≤ (op.perform s sanitizer w).2.clockReads ∧
      w.idsUsed ≤ (op.perform s sanitizer w).2.idsUsed :=
  (op.task sanitizer).run.counters_run s w

theorem counters_performAll (ops : List Operation) (w : World) :
    w.clockReads ≤ (performAll s sanitizer ops w).2.clockReads ∧
      w.idsUsed ≤ (performAll s sanitizer ops w).2.idsUsed := by
  induction ops generalizing w with
  | nil => exact ⟨Nat.le_refl _, Nat.le_refl _⟩
  | cons op rest ih =>
    obtain ⟨hclock, hids⟩ := counters_perform s sanitizer op w
    obtain ⟨hclock', hids'⟩ := ih (op.perform s sanitizer w).2
    exact ⟨Nat.le_trans hclock hclock', Nat.le_trans hids hids'⟩

end

/-- A change that succeeds has read the clock once. -/
theorem Operation.effect_clockReads {sanitizer : Sanitizer} {op : Operation} {now : Instant}
    {fresh : Nat → Uuid} {t : Tables} {reply : Reply} (hmutation : op.isMutation = true)
    (hok : (op.effect sanitizer now fresh t).answer = .ok reply) :
    (op.effect sanitizer now fresh t).clockReads = 1 := by
  unfold effect at hok ⊢
  rcases op.plan_of_mutation sanitizer hmutation with ⟨e, hplan⟩ | ⟨body, hplan⟩
  · rw [hplan] at hok
    cases hok
  · rw [hplan, Plan.effect]
    rcases (body now).eval now fresh ⟨t, 0, []⟩ with ⟨_ | settled, ws⟩ <;> rfl

/-- A category that is made takes one identifier. -/
theorem Operation.effect_createCategory_taken {sanitizer : Sanitizer} {r : NameCategory}
    {now : Instant} {fresh : Nat → Uuid} {t : Tables} {reply : Reply} (hwf : t.WellFormed)
    (hok : ((createCategory r).effect sanitizer now fresh t).answer = .ok reply) :
    ((createCategory r).effect sanitizer now fresh t).taken = 1 := by
  have htransition := transition_of_createCategory hok
  generalize ((createCategory r).effect sanitizer now fresh t).tables = t' at htransition
  generalize ((createCategory r).effect sanitizer now fresh t).events = events at htransition
  cases htransition with
  | look hlooks => cases hlooks
  | createCategory hc hgiven hfree =>
    subst hc
    rw [NameCategory.effect_create_of_free hwf hgiven (Tables.categoryNamed?_eq_none_iff.mp hfree)]

/-! ## Runs -/

/-- The first readings of the clock do not go back. -/
def Surroundings.InOrder (s : Surroundings) (reads : Nat) : Prop :=
  ∀ m n, m ≤ n → n < reads → s.clock m ≤ s.clock n

/-- The first identifiers are different. -/
def Surroundings.NeverRepeats (s : Surroundings) (taken : Nat) : Prop :=
  ∀ m n, m < n → n < taken → s.ids m ≠ s.ids n

/-- The clock has shown this instant. -/
def World.Past (s : Surroundings) (w : World) (x : Instant) : Prop :=
  ∃ n, n < w.clockReads ∧ s.clock n = x

/-- No transaction is open, the times in the tables were shown by the clock, and the identifiers of
the categories were taken. -/
structure World.Kept (s : Surroundings) (w : World) (t : Tables) : Prop where
  free : w.store.Free t
  wellFormed : t.WellFormed
  dated : t.Dated (w.Past s)
  known : ∀ id c, t.categories.get? id = some c → ∃ n, n < w.idsUsed ∧ s.ids n = id

namespace World.Kept

variable {s : Surroundings} {sanitizer : Sanitizer} {w : World} {t : Tables}

theorem initial (s : Surroundings) : World.initial.Kept s .empty where
  free := rfl
  wellFormed := .empty
  dated := .empty _
  known := by intro id c hget; cases hget

/-- What was past stays past. -/
theorem later {w' : World} (h : w.Kept s t) (hfree : w'.store.Free t)
    (hcounters : w.clockReads ≤ w'.clockReads ∧ w.idsUsed ≤ w'.idsUsed) : w'.Kept s t where
  free := hfree
  wellFormed := h.wellFormed
  dated := h.dated.mono fun _ ⟨n, hn, hx⟩ => ⟨n, Nat.lt_of_lt_of_le hn hcounters.1, hx⟩
  known id c hget := by
    obtain ⟨n, hn, hid⟩ := h.known id c hget
    exact ⟨n, Nat.lt_of_lt_of_le hn hcounters.2, hid⟩

theorem perform (h : w.Kept s t) (op : Operation)
    (hclock : s.InOrder (op.perform s sanitizer w).2.clockReads)
    (hids : s.NeverRepeats (op.perform s sanitizer w).2.idsUsed) :
    ∃ t', (op.perform s sanitizer w).2.Kept s t' := by
  have hcounters := counters_perform s sanitizer op w
  have hperformed := perform_cases s sanitizer op h.free
  have hwellFormed := perform_wellFormed s sanitizer op h.free h.wellFormed
  generalize op.perform s sanitizer w = ran at hclock hids hcounters hperformed hwellFormed ⊢
  cases hperformed with
  | struck _ _ hstore => exact ⟨t, h.later hstore hcounters⟩
  | done _ _ hstore hreads htaken _ =>
    generalize heffect : op.effect sanitizer (s.clock w.clockReads)
      (fun n => s.ids (w.idsUsed + n)) t = effect at hstore hreads htaken
    cases hanswer : effect.answer with
    | error e =>
      have hsame : effect.tables = t :=
        heffect ▸ Operation.effect_tables_of_error (heffect.symm ▸ hanswer)
      exact ⟨t, h.later (hsame ▸ hstore) hcounters⟩
    | ok reply =>
      have hok : (op.effect sanitizer (s.clock w.clockReads) (fun n => s.ids (w.idsUsed + n))
          t).answer = .ok reply := heffect.symm ▸ hanswer
      have htransition := effect_transition h.wellFormed hok
      rw [heffect] at htransition
      cases hmutation : op.isMutation with
      | false =>
        have hsame : effect.tables = t := heffect ▸ (Operation.effect_of_look hmutation).1
        exact ⟨t, h.later (hsame ▸ hstore) hcounters⟩
      | true =>
        have hread : effect.clockReads = 1 := heffect ▸ Operation.effect_clockReads hmutation hok
        rw [hread] at hreads
        have hpresent : w.clockReads < ran.2.clockReads := by omega
        have hnow : ∀ x, w.Past s x → x ≤ s.clock w.clockReads := by
          rintro x ⟨n, hn, rfl⟩
          exact hclock n w.clockReads (Nat.le_of_lt hn) hpresent
        have htaken₁ : ∀ r, op = .createCategory r → w.idsUsed < ran.2.idsUsed := by
          rintro r rfl
          have hone : effect.taken = 1 :=
            heffect ▸ Operation.effect_createCategory_taken h.wellFormed hok
          omega
        refine ⟨effect.tables, hstore, ?_, ?_, fun id c hget => ?_⟩
        · have htables : ran.2.store.tables = effect.tables := congrArg Store.tables hstore
          exact htables ▸ hwellFormed
        · refine htransition.dated h.wellFormed h.dated hnow ?_ ⟨_, hpresent, rfl⟩ fun r hr => ?_
          · rintro x ⟨n, hn, hx⟩
            exact ⟨n, Nat.lt_trans hn hpresent, hx⟩
          · -- the identifier was not taken before
            by_contra hused
            obtain ⟨c, hc⟩ := Option.ne_none_iff_exists'.mp hused
            obtain ⟨n, hn, hid⟩ := h.known _ c hc
            exact hids n w.idsUsed hn (htaken₁ r hr) hid
        · rcases htransition.known hget with ⟨d, hd⟩ | ⟨⟨r, hr⟩, rfl⟩
          · obtain ⟨n, hn, hid⟩ := h.known id d hd
            exact ⟨n, Nat.lt_of_lt_of_le hn hcounters.2, hid⟩
          · exact ⟨w.idsUsed, htaken₁ r hr, rfl⟩

theorem performAll (h : w.Kept s t) (ops : List Operation)
    (hclock : s.InOrder (performAll s sanitizer ops w).2.clockReads)
    (hids : s.NeverRepeats (performAll s sanitizer ops w).2.idsUsed) :
    ∃ t', (performAll s sanitizer ops w).2.Kept s t' := by
  induction ops generalizing w t with
  | nil => exact ⟨t, h⟩
  | cons op rest ih =>
    obtain ⟨hreads, htaken⟩ := counters_performAll s sanitizer rest (op.perform s sanitizer w).2
    have hclock₁ : s.InOrder (op.perform s sanitizer w).2.clockReads :=
      fun m n hmn hn => hclock m n hmn (Nat.lt_of_lt_of_le hn hreads)
    have hids₁ : s.NeverRepeats (op.perform s sanitizer w).2.idsUsed :=
      fun m n hmn hn => hids m n hmn (Nat.lt_of_lt_of_le hn htaken)
    obtain ⟨t₁, h₁⟩ := h.perform op hclock₁ hids₁
    exact ih h₁ hclock hids

end World.Kept

end Weblog
