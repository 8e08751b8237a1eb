import Weblog.Proofs.Shown
import Weblog.Proofs.Store.Latest

/-!
# The order of rows

Some answers are found by looking through all rows of a table, and these come in whatever order the
table has them in. `Tables.Enumeration` is any such order, and `Store.sessionIn` is a session in
which they come in another order at every step.

* `latestVersion?_eq_some_iff`, `categoryNamed?_eq_some_iff`, `mem_versionsOfPost_iff` and
  `pairwise_versionsOfPost` (well-formed tables): what is found is told by what is stored under the
  keys. Neither the numbers of the versions of one post nor the names of categories repeat, so there
  is one greatest number, one category of a name and one way to sort.
* `Store.actIn_eq` (well-formed tables): hence nothing that can be done with a store depends on the
  order, neither its answer nor what it makes of the store.
* `order_never_shows`: this for whole sessions, and what is found in the tables after any of them.
-/

namespace Weblog

/-! ## Rows in some order -/

namespace Tables

/-- The rows of tables in the order in which they come when all of them are looked through: every
row, and every row once. -/
structure Enumeration (t : Tables) where
  versions : List Version
  categories : List Category
  links : List Link
  versions_perm : versions.Perm t.versions.rows
  categories_perm : categories.Perm t.categories.rows
  links_perm : links.Perm t.links.rows

/-- An order for the rows of all tables that there can be. -/
abbrev Order :=
  (t : Tables) → t.Enumeration

/-- The version of a post whose number is greater than that of every other version of it. -/
structure IsLatest (t : Tables) (post : Uuid) (v : Version) : Prop where
  stored : t.versions.get? v.id = some v
  owned : v.post = post
  greatest : ∀ k u, t.versions.get? k = some u → u.post = post → u ≠ v → u.number < v.number

namespace Enumeration

variable {t : Tables} (e : t.Enumeration)

/-- The categories that a version is in, by name. -/
def categoriesOf (version : Uuid) : List Category :=
  sortByName ((e.links.filter (·.version = version)).filterMap fun l =>
    t.categories.get? l.category)

/-- The rows in the order of their keys. -/
def byKey (t : Tables) : t.Enumeration :=
  ⟨t.versions.rows, t.categories.rows, t.links.rows, .rfl, .rfl, .rfl⟩

end Enumeration

end Tables

/-! ## A store whose rows come in some order -/

/-- Makes a call when the rows come in some order. Calls that look rows up under their keys do not
notice. -/
def Transaction.performIn (tx : Transaction) (e : tx.tables.Enumeration) :
    (c : Call) → Except Error c.Answer × Transaction
  | .createVersion v =>
    if !tx.tables.posts.contains v.post then
      (.error (.internal
        ("post version " ++ v.id.toText ++ " references missing post " ++ v.post.toText)), tx)
    else if (e.versions.any fun w => w.post = v.post ∧ w.number = v.number) ∨
        tx.tables.versions.contains v.id then
      (.error (.internal
        ("duplicate version " ++ String.ofList (Text.signedDecimal v.number) ++ " of post " ++
          v.post.toText)), tx)
    else (.ok (), tx.putVersion v)
  | .lockLatestVersion post => (.ok (latestVersion? e.versions post), tx)
  | .createCategory c =>
    if isNameTaken e.categories c.name c.id then (.error (.nameTaken c.name), tx)
    else (.ok (), tx.putCategory c)
  | .updateCategory c =>
    if isNameTaken e.categories c.name c.id then (.error (.nameTaken c.name), tx)
    else match tx.tables.categories.get? c.id with
      | none => (.error (.categoryNotFound c.id), tx)
      | some stored => (.ok (), tx.putCategory { stored with name := c.name, updated := c.updated })
  | .findCategoryByName name => (.ok (categoryNamed? e.categories name), tx)
  | c => tx.perform c

namespace Store

variable {α : Type}

/-- Asks something of the store when the rows come in some order. -/
def performIn (s : Store) (e : s.tables.Enumeration) :
    (a : Access) → Except Refusal (Except Error a.Answer × Store)
  | .call c =>
    match s.record with
    | some record =>
      let (answer, tx) := Transaction.performIn ⟨s.tables, record⟩ e c
      .ok (answer, ⟨tx.tables, some tx.record⟩)
    | none => .error .noTransaction
  | .query (.categoriesOf version) =>
    (s.look fun _ => e.categoriesOf version).map fun answer => (.ok answer, s)
  | a => s.perform a

/-- Does something with the store when the rows come in some order. The links of a version are read
out by their keys all the same. -/
def actIn (s : Store) (e : s.tables.Enumeration) : (x : Action α) → x.Answer × Store
  | .access a => settle s (s.performIn e a)
  | .read (.versionsOf post) => (s.look fun _ => versionsOfPost e.versions post, s)
  | x => s.act x

/-- Does one thing after another, each when the rows come in an order of its own, and keeps what is
seen. -/
def sessionIn (s : Store) : List (Tables.Order × Action α) → List (Observation α) × Store
  | [] => ([], s)
  | (order, x) :: rest =>
    let (answer, s') := s.actIn (order s.tables) x
    let (observations, s'') := s'.sessionIn rest
    (⟨x, answer, s'.committed⟩ :: observations, s'')

end Store

/-! ## What is found among the rows -/

/-- Versions of one post with one number are one version. -/
theorem Tables.WellFormed.eq_of_place {t : Tables} (hwf : t.WellFormed) {k k' : Uuid}
    {u v : Version} (hu : t.versions.get? k = some u) (hv : t.versions.get? k' = some v)
    (hplace : u.place = v.place) : u = v := by
  obtain rfl := Table.distinct_iff.mp hwf.places k k' u v hu hv hplace
  exact Option.some.inj (hu.symm.trans hv)

namespace Tables.Enumeration

variable {t : Tables} (e : t.Enumeration) (hwf : t.WellFormed) {post version : Uuid}
  {v : Version} {c : Category} {name : String}

theorem isNameTaken_eq (name : String) (except : Uuid) :
    isNameTaken e.categories name except = isNameTaken t.categories.rows name except :=
  e.categories_perm.any_eq

include hwf

theorem mem_versions_iff : v ∈ e.versions ↔ t.versions.get? v.id = some v := by
  rw [e.versions_perm.mem_iff]
  exact hwf.versions.mem_rows_iff

theorem mem_categories_iff : c ∈ e.categories ↔ t.categories.get? c.id = some c := by
  rw [e.categories_perm.mem_iff]
  exact hwf.categories.mem_rows_iff

theorem latestVersion?_eq_some_iff :
    latestVersion? e.versions post = some v ↔ t.IsLatest post v := by
  constructor
  · intro hlatest
    obtain ⟨hv, hpost⟩ := mem_of_latestVersion? hlatest
    have hstored := (e.mem_versions_iff hwf).mp hv
    refine ⟨hstored, hpost, fun k u hget hu hne => ?_⟩
    have hmem : u ∈ e.versions := e.versions_perm.mem_iff.mpr (Table.mem_rows.mpr ⟨k, hget⟩)
    have hle := le_of_latestVersion? hlatest u hmem hu
    have hnumber : u.number ≠ v.number := fun heq =>
      hne (hwf.eq_of_place hget hstored (Prod.ext (hu.trans hpost.symm) heq))
    omega
  · rintro ⟨hstored, hpost, hgreatest⟩
    have hv : v ∈ e.versions := (e.mem_versions_iff hwf).mpr hstored
    refine foldl_newer _ (fun w hw => by cases hw) (fun w hw hne => ?_)
      (.inr (List.mem_filter.mpr ⟨hv, decide_eq_true hpost⟩))
    obtain ⟨hw, hwpost⟩ := List.mem_filter.mp hw
    exact hgreatest w.id w ((e.mem_versions_iff hwf).mp hw) (of_decide_eq_true hwpost) hne

omit hwf in
theorem latestVersion?_eq_none_iff : latestVersion? e.versions post = none ↔
    ∀ k v, t.versions.get? k = some v → v.post ≠ post := by
  rw [Weblog.latestVersion?_eq_none_iff]
  constructor
  · intro hnone k v hget
    exact hnone v (e.versions_perm.mem_iff.mpr (Table.mem_rows.mpr ⟨k, hget⟩))
  · intro hnone v hv
    obtain ⟨k, hget⟩ := Table.mem_rows.mp (e.versions_perm.mem_iff.mp hv)
    exact hnone k v hget

theorem categoryNamed?_eq_some_iff : categoryNamed? e.categories name = some c ↔
    t.categories.get? c.id = some c ∧ c.name = name := by
  rw [← e.mem_categories_iff hwf]
  constructor
  · intro hfound
    exact ⟨List.mem_of_find?_eq_some hfound, by simpa using List.find?_some hfound⟩
  · rintro ⟨hc, hname⟩
    -- some category of the name is found, and there is no other
    have hsome : (categoryNamed? e.categories name).isSome = true :=
      List.find?_isSome.mpr ⟨c, hc, decide_eq_true hname⟩
    obtain ⟨d, hd⟩ := Option.isSome_iff_exists.mp hsome
    have hstored := (e.mem_categories_iff hwf).mp hc
    have hstored' := (e.mem_categories_iff hwf).mp (List.mem_of_find?_eq_some hd)
    have hname' : d.name = name := by simpa using List.find?_some hd
    exact (hwf.eq_of_name hstored' hstored (hname'.trans hname.symm)).2 ▸ hd

theorem mem_versionsOfPost_iff :
    v ∈ versionsOfPost e.versions post ↔ t.versions.get? v.id = some v ∧ v.post = post := by
  rw [Weblog.mem_versionsOfPost_iff, e.mem_versions_iff hwf]

/-- The versions of a post stand in the strict order of their numbers. -/
theorem pairwise_versionsOfPost (post : Uuid) :
    (versionsOfPost e.versions post).Pairwise fun v w => v.number < w.number := by
  have hrows : t.versions.rows.Nodup := hwf.versions.distinct.of_map
  have hnodup : (versionsOfPost e.versions post).Nodup :=
    (versionsOfPost_perm _ _).nodup_iff.mpr ((e.versions_perm.nodup_iff.mpr hrows).filter _)
  refine ((Weblog.pairwise_versionsOfPost e.versions post).and hnodup).imp_of_mem
    fun {v w} hv hw h => ?_
  obtain ⟨hv, hvpost⟩ := (e.mem_versionsOfPost_iff hwf).mp hv
  obtain ⟨hw, hwpost⟩ := (e.mem_versionsOfPost_iff hwf).mp hw
  have hnumber : v.number ≠ w.number := fun heq =>
    h.2 (hwf.eq_of_place hv hw (Prod.ext (hvpost.trans hwpost.symm) heq))
  omega

/-! ## The same in every order -/

theorem latestVersion?_eq (post : Uuid) :
    latestVersion? e.versions post = latestVersion? t.versions.rows post :=
  Option.ext fun _ =>
    (e.latestVersion?_eq_some_iff hwf).trans ((byKey t).latestVersion?_eq_some_iff hwf).symm

theorem categoryNamed?_eq (name : String) :
    categoryNamed? e.categories name = categoryNamed? t.categories.rows name :=
  Option.ext fun _ =>
    (e.categoryNamed?_eq_some_iff hwf).trans ((byKey t).categoryNamed?_eq_some_iff hwf).symm

/-- There is one way to sort versions whose numbers differ. -/
theorem versionsOfPost_eq (post : Uuid) :
    versionsOfPost e.versions post = versionsOfPost t.versions.rows post := by
  have hperm : (versionsOfPost e.versions post).Perm (versionsOfPost t.versions.rows post) :=
    (versionsOfPost_perm _ _).trans
      ((e.versions_perm.filter _).trans (versionsOfPost_perm _ _).symm)
  refine hperm.eq_of_pairwise (fun v w _ _ hvw hwv => ?_) (e.pairwise_versionsOfPost hwf post)
    ((byKey t).pairwise_versionsOfPost hwf post)
  omega

/-- There is one way to sort categories whose names differ. -/
theorem categoriesOf_eq (version : Uuid) : e.categoriesOf version = t.categoriesOf version := by
  refine sortByName_congr ((e.links_perm.filter _).filterMap _) fun c hc d hd hname => ?_
  obtain ⟨_, -, hc⟩ := List.mem_filterMap.mp hc
  obtain ⟨_, -, hd⟩ := List.mem_filterMap.mp hd
  exact (hwf.eq_of_name hc hd hname).2

end Tables.Enumeration

/-! ## Sessions -/

/-- A call answers the same and writes the same in every order of the rows. -/
theorem Transaction.performIn_eq (tx : Transaction) (hwf : tx.tables.WellFormed)
    (e : tx.tables.Enumeration) (c : Call) : tx.performIn e c = tx.perform c := by
  cases c with
  | createVersion v =>
    simp only [performIn, e.versions_perm.any_eq]
    rfl
  | createCategory c | updateCategory c =>
    simp only [performIn, e.isNameTaken_eq]
    rfl
  | lockLatestVersion post =>
    simp only [performIn, e.latestVersion?_eq hwf]
    rfl
  | findCategoryByName name =>
    simp only [performIn, e.categoryNamed?_eq hwf]
    rfl
  | createPost _ | updatePost _ | lockPost _ | updateVersion _ | lockVersion _ | deleteVersion _
  | lockCategory _ | findCategories _ | attach _ => rfl

namespace Store

variable {α : Type}

theorem performIn_eq {s : Store} (hwf : s.tables.WellFormed) (e : s.tables.Enumeration)
    (a : Access) : s.performIn e a = s.perform a := by
  obtain ⟨t, record⟩ := s
  cases a with
  | call c =>
    cases record with
    | none => rfl
    | some record =>
      have hcall : Transaction.performIn ⟨t, record⟩ e c = Transaction.perform ⟨t, record⟩ c :=
        Transaction.performIn_eq ⟨t, record⟩ hwf e c
      simp only [performIn, hcall]
      rfl
  | query q =>
    cases q with
    | categoriesOf version =>
      simp only [performIn, e.categoriesOf_eq hwf]
      rfl
    | currentPost id => rfl
    | version id => rfl
    | category id => rfl
  | begin | commit | rollback => rfl

/-- Whatever is done with a store, the order of the rows makes no difference. -/
theorem actIn_eq {s : Store} (hwf : s.tables.WellFormed) (e : s.tables.Enumeration)
    (x : Action α) : s.actIn e x = s.act x := by
  cases x with
  | access a =>
    simp only [actIn, performIn_eq hwf e]
    rfl
  | read r =>
    cases r with
    | versionsOf post =>
      simp only [actIn, e.versionsOfPost_eq hwf]
      rfl
    | post id => rfl
    | linksOf version => rfl
  | drop => rfl
  | finish result => rfl

/-- Whatever is done with a store keeps it well-formed. -/
theorem wellFormed_act {s : Store} (h : s.snapshot.WellFormed) (x : Action α) :
    (s.act x).2.snapshot.WellFormed := by
  have hact := h.act x
  rw [snapshot_act] at hact
  exact hact

theorem wellFormed_session {s : Store} (h : s.snapshot.WellFormed) (actions : List (Action α)) :
    (s.session actions).2.snapshot.WellFormed := by
  have hsession := h.session actions
  rw [snapshot_session] at hsession
  exact hsession

theorem wellFormed_tables {s : Store} (h : s.snapshot.WellFormed) : s.tables.WellFormed := by
  obtain ⟨t, _ | record⟩ := s
  · exact h.committed
  · exact h.copy t rfl

theorem sessionIn_eq {s : Store} (h : s.snapshot.WellFormed)
    (steps : List (Tables.Order × Action α)) :
    s.sessionIn steps = s.session (steps.map Prod.snd) := by
  induction steps generalizing s with
  | nil => rfl
  | cons step rest ih =>
    obtain ⟨order, x⟩ := step
    have hact : s.actIn (order s.tables) x = s.act x := actIn_eq (wellFormed_tables h) _ x
    simp only [sessionIn, List.map_cons, session, hact, ih (wellFormed_act h x)]

end Store

/-- **The order of rows never shows.** A session in which the rows of the tables come in another
order at every step is answered like one in which they come in the order of their keys, and leaves
the same store. In all tables that a session leads to, whatever was done in it and with whatever
rows, and for every order of their rows: the latest version of a post is the one with the greatest
number, which no other version of the post has, and is missing only when there are no versions; a
category is found by its name exactly if it has that name, which no other category has; the
versions of a post are listed all and once, in strictly ascending order of their numbers; and the
categories of a version in strictly ascending order of their names. -/
theorem order_never_shows {α : Type} :
    (∀ steps : List (Tables.Order × Action α),
      Store.empty.sessionIn steps = Store.empty.session (steps.map Prod.snd)) ∧
    ∀ actions : List (Action α),
      let t := (Store.empty.session actions).2.tables
      ∀ e : t.Enumeration,
        (∀ post, latestVersion? e.versions post = latestVersion? t.versions.rows post ∧
          (∀ v, latestVersion? e.versions post = some v ↔ t.IsLatest post v) ∧
          (latestVersion? e.versions post = none ↔
            ∀ k v, t.versions.get? k = some v → v.post ≠ post)) ∧
        (∀ name, categoryNamed? e.categories name = categoryNamed? t.categories.rows name ∧
          ∀ c, categoryNamed? e.categories name = some c ↔
            t.categories.get? c.id = some c ∧ c.name = name) ∧
        (∀ post, versionsOfPost e.versions post = versionsOfPost t.versions.rows post ∧
          (versionsOfPost e.versions post).Pairwise (fun v w => v.number < w.number) ∧
          ∀ v, v ∈ versionsOfPost e.versions post ↔
            t.versions.get? v.id = some v ∧ v.post = post) ∧
        ∀ version, e.categoriesOf version = t.categoriesOf version ∧
          (e.categoriesOf version).Pairwise (fun c d => c.name < d.name) ∧
          ∀ c, c ∈ e.categoriesOf version ↔
            t.categories.get? c.id = some c ∧ t.links.contains (version, c.id) = true := by
  have hempty : Store.empty.snapshot.WellFormed :=
    Snapshot.WellFormed.idle Tables.WellFormed.empty
  refine ⟨fun steps => Store.sessionIn_eq hempty steps, fun actions => ?_⟩
  intro t e
  have hwf : t.WellFormed := Store.wellFormed_tables (Store.wellFormed_session hempty actions)
  refine ⟨fun post => ?_, fun name => ?_, fun post => ?_, fun version => ?_⟩
  · exact ⟨e.latestVersion?_eq hwf post, fun v => e.latestVersion?_eq_some_iff hwf,
      e.latestVersion?_eq_none_iff⟩
  · exact ⟨e.categoryNamed?_eq hwf name, fun c => e.categoryNamed?_eq_some_iff hwf⟩
  · exact ⟨e.versionsOfPost_eq hwf post, e.pairwise_versionsOfPost hwf post,
      fun v => e.mem_versionsOfPost_iff hwf⟩
  · rw [e.categoriesOf_eq hwf]
    exact ⟨rfl, hwf.pairwise_categoriesOf version, fun c => hwf.mem_categoriesOf_iff⟩

end Weblog
