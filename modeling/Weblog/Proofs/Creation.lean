import Weblog.Proofs.Transition

/-!
# Rows that are created

A row that is created should not take the place of another. For posts and for versions it does not:
their calls refuse an identifier that is in use. The call that creates a category asks for its name
only, and finds the category whose identifier it is given no obstacle.

* `category_replaced`: a source that repeats an identifier makes a new category replace another.
* `creations_write`: what holds of each of the three calls, and of the operations that make them,
  with whatever source of identifiers: a new post leaves all rows as they are, and a new category
  all but the category under its own identifier.
-/

namespace Weblog

namespace Table

variable {κ α : Type} [Key κ] [DecidableEq κ] {t t' : Table κ α} {key : κ} {row : α}

/-- A row was written under a key, and under the others there is what there was. -/
def Wrote (t t' : Table κ α) (key : κ) (row : α) : Prop :=
  ∀ k, t'.get? k = if k = key then some row else t.get? k

/-- A row was added: nothing was under its key. -/
def Added (t t' : Table κ α) (key : κ) (row : α) : Prop :=
  t.get? key = none ∧ t.Wrote t' key row

theorem wrote_insert (t : Table κ α) (key : κ) (row : α) : t.Wrote (t.insert key row) key row :=
  fun k => t.get?_insert key k row

/-- A row that was written was added exactly if nothing was under its key. -/
theorem Wrote.added_iff (h : t.Wrote t' key row) : t.Added t' key row ↔ t.get? key = none :=
  and_iff_left h

theorem added_insert (row : α) (h : t.get? key = none) : t.Added (t.insert key row) key row :=
  ⟨h, t.wrote_insert key row⟩

end Table

/-! ## Calls -/

namespace Transaction

variable (tx : Transaction)

theorem createPost_cases (p : Post) :
    (tx.tables.posts.get? p.id = none ∧ tx.createPost p = (.ok (), tx.putPost p)) ∨
      tx.tables.posts.contains p.id = true ∧ ∃ e, tx.createPost p = (.error e, tx) := by
  unfold createPost
  split
  · rename_i hused
    exact .inr ⟨hused, _, rfl⟩
  · rename_i hnew
    exact .inl ⟨Table.contains_eq_false_iff.mp (Bool.eq_false_iff.mpr hnew), rfl⟩

/-- A version is refused when its post is missing, when another version has its place, or when its
identifier is in use. -/
theorem createVersion_cases (v : Version) :
    (tx.tables.versions.get? v.id = none ∧ tx.createVersion v = (.ok (), tx.putVersion v)) ∨
      (tx.tables.posts.contains v.post = false ∨
        (∃ w ∈ tx.tables.versions.rows, w.place = v.place) ∨
        tx.tables.versions.contains v.id = true) ∧
      ∃ e, tx.createVersion v = (.error e, tx) := by
  unfold createVersion
  split
  · rename_i hmissing
    exact .inr ⟨.inl (by simpa using hmissing), _, rfl⟩
  · split
    · rename_i htaken
      refine .inr ⟨.inr (htaken.imp (fun hany => ?_) id), _, rfl⟩
      obtain ⟨w, hw, hsame⟩ := List.any_eq_true.mp hany
      obtain ⟨hpost, hnumber⟩ := of_decide_eq_true hsame
      exact ⟨w, hw, Prod.ext hpost hnumber⟩
    · rename_i hfree
      have hunused := mt Or.inr hfree
      exact .inl ⟨Table.contains_eq_false_iff.mp (Bool.eq_false_iff.mpr hunused), rfl⟩

/-- A category is refused only when another one has its name. -/
theorem createCategory_cases (c : Category) :
    tx.createCategory c = (.ok (), tx.putCategory c) ∨
      (∃ d ∈ tx.tables.categories.rows, d.name = c.name ∧ d.id ≠ c.id) ∧
      ∃ e, tx.createCategory c = (.error e, tx) := by
  unfold createCategory
  split
  · rename_i htaken
    obtain ⟨d, hd, hsame⟩ := List.any_eq_true.mp htaken
    exact .inr ⟨⟨d, hd, of_decide_eq_true hsame⟩, _, rfl⟩
  · exact .inl rfl

end Transaction

/-! ## Operations -/

section

variable {s : Surroundings} {sanitizer : Sanitizer} {w : World} {t : Tables} {reply : Reply}

/-- A new post is added with its draft. -/
theorem perform_createPost_adds {r : CreatePost} (hfree : w.store.Free t)
    (hok : ((Operation.createPost r).perform s sanitizer w).1 = .answered (.ok reply)) :
    ∃ t' p v, ((Operation.createPost r).perform s sanitizer w).2.store.Free t' ∧
      reply = .post (.of v) ∧ t.posts.Added t'.posts p.id p ∧
      t.versions.Added t'.versions v.id v ∧
      t'.categories = t.categories ∧ t'.links = t.links := by
  obtain ⟨hanswer, hstore⟩ := perform_of_ok hfree hok
  have htransition := transition_of_createPost hanswer
  generalize (Operation.effect sanitizer (.createPost r) _ _ t).tables = t' at hstore htransition
  generalize (Operation.effect sanitizer (.createPost r) _ _ t).events = events at htransition
  cases htransition with
  | look hlooks => cases hlooks
  | @start _ v p _ _ _ hpost hunused =>
    exact ⟨_, p, v, hstore, rfl, Table.added_insert p hpost, Table.added_insert v hunused, rfl, rfl⟩

/-- A new category is written under the next identifier. -/
theorem perform_createCategory_writes {r : NameCategory} (hfree : w.store.Free t)
    (hok : ((Operation.createCategory r).perform s sanitizer w).1 = .answered (.ok reply)) :
    ∃ t' c, ((Operation.createCategory r).perform s sanitizer w).2.store.Free t' ∧
      reply = .category c ∧ c.id = s.ids w.idsUsed ∧ t.categories.Wrote t'.categories c.id c ∧
      t'.posts = t.posts ∧ t'.versions = t.versions ∧ t'.links = t.links := by
  obtain ⟨hanswer, hstore⟩ := perform_of_ok hfree hok
  have htransition := transition_of_createCategory hanswer
  generalize (Operation.effect sanitizer (.createCategory r) _ _ t).tables = t'
    at hstore htransition
  generalize (Operation.effect sanitizer (.createCategory r) _ _ t).events = events at htransition
  cases htransition with
  | look hlooks => cases hlooks
  | @createCategory _ c hc =>
    have hid : c.id = s.ids w.idsUsed := by rw [hc]; rfl
    exact ⟨_, c, hstore, rfl, hid, Table.wrote_insert _ c.id c, rfl, rfl, rfl⟩

end

/-- **Creations.** In a transaction, whatever the tables are: a post or a version that is created
was under no identifier before and is added to its table. A category that is created is written
under its own identifier, and so it is added exactly if that is not in use. No other row changes,
and a call that is refused changes nothing at all. Hence, whatever surrounds an operation and
whatever identifiers their source gives: a new post leaves every row as it was, and a new category
every row but that of the category whose identifier it is given. -/
theorem creations_write (tx : Transaction) (p : Post) (v : Version) (c : Category)
    (s : Surroundings) (sanitizer : Sanitizer) (world : World) (t : Tables) :
    (match tx.createPost p with
      | (.ok (), tx') => tx.tables.posts.Added tx'.tables.posts p.id p ∧
          tx'.tables = { tx.tables with posts := tx'.tables.posts }
      | (.error _, tx') => tx' = tx ∧ tx.tables.posts.contains p.id = true) ∧
    (match tx.createVersion v with
      | (.ok (), tx') => tx.tables.versions.Added tx'.tables.versions v.id v ∧
          tx'.tables = { tx.tables with versions := tx'.tables.versions }
      | (.error _, tx') => tx' = tx ∧ (tx.tables.posts.contains v.post = false ∨
          (∃ w ∈ tx.tables.versions.rows, w.place = v.place) ∨
          tx.tables.versions.contains v.id = true)) ∧
    (match tx.createCategory c with
      | (.ok (), tx') => tx.tables.categories.Wrote tx'.tables.categories c.id c ∧
          (tx.tables.categories.Added tx'.tables.categories c.id c ↔
            tx.tables.categories.get? c.id = none) ∧
          tx'.tables = { tx.tables with categories := tx'.tables.categories }
      | (.error _, tx') => tx' = tx ∧
          ∃ d ∈ tx.tables.categories.rows, d.name = c.name ∧ d.id ≠ c.id) ∧
    let w := { world with store := ⟨t, none⟩ }
    (∀ r reply, ((Operation.createPost r).perform s sanitizer w).1 = .answered (.ok reply) →
      ∃ t' p v, ((Operation.createPost r).perform s sanitizer w).2.store.Free t' ∧
        reply = .post (.of v) ∧ t.posts.Added t'.posts p.id p ∧
        t.versions.Added t'.versions v.id v ∧
        t'.categories = t.categories ∧ t'.links = t.links) ∧
    (∀ r reply, ((Operation.createCategory r).perform s sanitizer w).1 = .answered (.ok reply) →
      ∃ t' c, ((Operation.createCategory r).perform s sanitizer w).2.store.Free t' ∧
        reply = .category c ∧ c.id = s.ids w.idsUsed ∧
        t.categories.Wrote t'.categories c.id c ∧
        (t.categories.Added t'.categories c.id c ↔ t.categories.get? c.id = none) ∧
        t'.posts = t.posts ∧ t'.versions = t.versions ∧ t'.links = t.links) := by
  refine ⟨?_, ?_, ?_, ?_⟩
  · rcases tx.createPost_cases p with ⟨hnew, hran⟩ | ⟨hused, e, hran⟩
    · rw [hran]
      exact ⟨Table.added_insert p hnew, rfl⟩
    · rw [hran]
      exact ⟨rfl, hused⟩
  · rcases tx.createVersion_cases v with ⟨hnew, hran⟩ | ⟨hrefused, e, hran⟩
    · rw [hran]
      exact ⟨Table.added_insert v hnew, rfl⟩
    · rw [hran]
      exact ⟨rfl, hrefused⟩
  · rcases tx.createCategory_cases c with hran | ⟨htaken, e, hran⟩
    · rw [hran]
      have hwrote := tx.tables.categories.wrote_insert c.id c
      exact ⟨hwrote, hwrote.added_iff, rfl⟩
    · rw [hran]
      exact ⟨rfl, htaken⟩
  · intro w
    have hfree : w.store.Free t := rfl
    refine ⟨fun r reply => perform_createPost_adds hfree, fun r reply hok => ?_⟩
    obtain ⟨t', c, hstore, hreply, hid, hwrote, hrest⟩ := perform_createCategory_writes hfree hok
    exact ⟨t', c, hstore, hreply, hid, hwrote, hwrote.added_iff, hrest⟩

/-- The identifier of a category is given again, and the call that creates the second category finds
its name free. The first one is gone. -/
theorem category_replaced :
    let s : Surroundings := .serving [] [.ofNat 1, .ofNat 1]
    let w := (performAll s .identity [.createCategory ⟨"news"⟩] World.initial).2
    let ran := (Operation.createCategory ⟨"sport"⟩).perform s .identity w
    let tx : Transaction := ⟨w.store.tables, []⟩
    let news : Category := .new (.ofNat 1) "news" .epoch
    let sport : Category := .new (.ofNat 1) "sport" .epoch
    (tx.tables.categories.get? (.ofNat 1) = some news ∧ (tx.createCategory sport).1 = .ok ()) ∧
    w.store.tables.categories.get? (.ofNat 1) = some news ∧
    ran.1 = .answered (.ok (.category sport)) ∧
    ran.2.store.tables.categories.get? (.ofNat 1) = some sport := by
  intro s w ran tx news sport
  have hstored : w.store.tables.categories.get? (.ofNat 1) = some news := by decide +kernel
  have hnamed : isNameTaken tx.tables.categories.rows "sport" (.ofNat 1) = false := by
    decide +kernel
  have hcreated : (tx.createCategory sport).1 = .ok () :=
    congrArg Prod.fst (if_neg (Bool.eq_false_iff.mp hnamed))
  have hanswer : ran.1 = .answered (.ok (.category sport)) :=
    Outcome.eq_of_reply? (by decide +kernel)
  exact ⟨⟨hstored, hcreated⟩, hstored, hanswer, by decide +kernel⟩

end Weblog
