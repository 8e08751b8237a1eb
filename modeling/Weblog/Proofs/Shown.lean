import Mathlib.Data.List.Nodup
import Weblog.Proofs.Categorized

/-!
# What is shown of a post

A post is shown with the version that its row points to and with the categories of that version.

* `Tables.WellFormed.mem_categoriesOf_iff`, `Tables.WellFormed.pairwise_categoriesOf`: these are
  the categories that a link leads to from the version, in strictly ascending order of their names.
* `perform_getPost`: what a request for a post comes to when it meets no fault.
-/

namespace Weblog

/-! ## The order of names -/

theorem sortByName_perm (l : List Category) : (sortByName l).Perm l :=
  List.mergeSort_perm _ _

theorem pairwise_sortByName (l : List Category) :
    (sortByName l).Pairwise fun a b => a.name ≤ b.name := by
  let le : Category → Category → Bool := fun a b => decide (a.name ≤ b.name)
  have htrans : ∀ a b c, le a b = true → le b c = true → le a c = true := by
    intro a b c hab hbc
    exact decide_eq_true (String.le_trans (of_decide_eq_true hab) (of_decide_eq_true hbc))
  have htotal : ∀ a b, (le a b || le b a) = true := by
    intro a b
    simpa [le] using String.le_total a.name b.name
  exact (List.pairwise_mergeSort htrans htotal l).imp of_decide_eq_true

/-- The order in which categories of different names are given does not matter. -/
theorem sortByName_congr {l l' : List Category} (hperm : l.Perm l')
    (hnames : ∀ a ∈ l, ∀ b ∈ l, a.name = b.name → a = b) : sortByName l = sortByName l' := by
  have hsorted : (sortByName l).Perm (sortByName l') :=
    (sortByName_perm l).trans (hperm.trans (sortByName_perm l').symm)
  refine hsorted.eq_of_pairwise (fun a b ha hb hab hba => ?_) (pairwise_sortByName l)
    (pairwise_sortByName l')
  have ha' : a ∈ l := (sortByName_perm l).mem_iff.mp ha
  have hb' : b ∈ l := hperm.mem_iff.mpr ((sortByName_perm l').mem_iff.mp hb)
  exact hnames a ha' b hb' (String.le_antisymm hab hba)

/-- Categories are sorted as soon as they stand in the strict order of their names. -/
theorem sortByName_eq {l l' : List Category} (hperm : l.Perm l')
    (hsorted : l'.Pairwise fun a b => a.name < b.name) : sortByName l = l' := by
  have hnodup : (l'.map (·.name)).Nodup := by
    refine List.pairwise_map.mpr (hsorted.imp fun {a b} hlt heq => ?_)
    rw [heq] at hlt
    exact String.lt_irrefl _ hlt
  have hle : l'.Pairwise fun a b => decide (a.name ≤ b.name) = true :=
    hsorted.imp fun hlt => decide_eq_true (String.not_lt.mp (String.lt_asymm hlt))
  have hnames : ∀ a ∈ l, ∀ b ∈ l, a.name = b.name → a = b := fun a ha b hb hname =>
    List.inj_on_of_nodup_map hnodup (hperm.mem_iff.mp ha) (hperm.mem_iff.mp hb) hname
  exact (sortByName_congr hperm hnames).trans (List.mergeSort_of_pairwise hle)

/-! ## The categories of a version -/

namespace Tables.WellFormed

variable {t : Tables} {version : Uuid} (hwf : t.WellFormed)

include hwf

/-- A name is the name of one category. -/
theorem eq_of_name {k k' : Uuid} {c d : Category} (hc : t.categories.get? k = some c)
    (hd : t.categories.get? k' = some d) (hname : c.name = d.name) : k = k' ∧ c = d := by
  obtain rfl := Table.distinct_iff.mp hwf.names k k' c d hc hd hname
  exact ⟨rfl, Option.some.inj (hc.symm.trans hd)⟩

/-- A version is in the categories that its links lead to. -/
theorem mem_categoriesOf_iff {c : Category} : c ∈ t.categoriesOf version ↔
    t.categories.get? c.id = some c ∧ t.links.contains (version, c.id) = true := by
  have hmem : c ∈ t.categoriesOf version ↔
      ∃ l ∈ t.linksOf version, t.categories.get? l.category = some c :=
    (sortByName_perm _).mem_iff.trans List.mem_filterMap
  rw [hmem]
  constructor
  · rintro ⟨l, hl, hget⟩
    have hid : c.id = l.category := hwf.categories _ c hget
    exact ⟨hid.symm ▸ hget, hid.symm ▸ hwf.contains_of_mem_linksOf hl⟩
  · rintro ⟨hget, hlinked⟩
    obtain ⟨l, hl⟩ := Table.contains_iff.mp hlinked
    have hpair : l.pair = (version, c.id) := hwf.links _ l hl
    obtain ⟨hversion, hcategory⟩ := Prod.mk.inj hpair
    refine ⟨l, List.mem_filter.mpr ⟨Table.mem_rows.mpr ⟨_, hl⟩, decide_eq_true hversion⟩, ?_⟩
    rw [hcategory, hget]

/-- No two links of a version lead to the same category. -/
theorem pairwise_linksOf (version : Uuid) :
    (t.linksOf version).Pairwise fun l l' => l.category ≠ l'.category := by
  have hpairs : t.links.rows.Pairwise fun l l' => l.pair ≠ l'.pair :=
    List.pairwise_map.mp hwf.pairs
  refine (hpairs.filter _).imp_of_mem fun {l l'} hl hl' hne hsame => hne ?_
  have hversion : l.version = version := of_decide_eq_true (List.mem_filter.mp hl).2
  have hversion' : l'.version = version := of_decide_eq_true (List.mem_filter.mp hl').2
  exact Prod.ext (hversion.trans hversion'.symm) hsame

/-- The categories of a version stand in the strict order of their names. -/
theorem pairwise_categoriesOf (version : Uuid) :
    (t.categoriesOf version).Pairwise fun a b => a.name < b.name := by
  have hnames : ((t.linksOf version).filterMap fun l =>
      t.categories.get? l.category).Pairwise fun a b => a.name ≠ b.name := by
    refine (hwf.pairwise_linksOf version).filterMap _ fun l l' hne c hc d hd hname => hne ?_
    exact (hwf.eq_of_name hc hd hname).1
  have hdistinct : (t.categoriesOf version).Pairwise fun a b => a.name ≠ b.name :=
    ((sortByName_perm _).pairwise_iff Ne.symm).mpr hnames
  refine ((pairwise_sortByName _).and hdistinct).imp fun {a b} h => String.not_le.mp fun hba => ?_
  exact h.2 (String.le_antisymm h.1 hba)

end Tables.WellFormed

/-- A category, or another one that has its identifier. -/
def Category.replacedBy (d c : Category) : Category :=
  if d.id = c.id then c else d

/-- A category that is written anew is shown in the place of what it was. -/
theorem Tables.WellFormed.categoriesOf_rewritten {t : Tables} {before c : Category}
    (hwf : t.WellFormed) (hwf' : (t.withCategory c).WellFormed)
    (hbefore : t.categories.get? c.id = some before) (version : Uuid) :
    (t.withCategory c).categoriesOf version =
      sortByName ((t.categoriesOf version).map (·.replacedBy c)) := by
  let found := (t.linksOf version).filterMap fun l => t.categories.get? l.category
  have hfound : ((t.linksOf version).filterMap fun l =>
      (t.withCategory c).categories.get? l.category) = found.map (·.replacedBy c) := by
    rw [List.map_filterMap]
    refine List.filterMap_congr fun l _ => ?_
    have hget : (t.withCategory c).categories.get? l.category =
        if l.category = c.id then some c else t.categories.get? l.category :=
      Table.get?_insert _ _ _ _
    rw [hget]
    cases hd : t.categories.get? l.category with
    | none =>
      have hne : l.category ≠ c.id := by
        intro heq
        rw [heq, hbefore] at hd
        cases hd
      rw [if_neg hne, Option.map_none]
    | some d =>
      have hid : d.id = l.category := hwf.categories _ d hd
      rw [Option.map_some, ← hid, Category.replacedBy]
      by_cases heq : d.id = c.id
      · rw [if_pos heq, if_pos heq]
      · rw [if_neg heq, if_neg heq]
  have hnames : ∀ a ∈ found.map (·.replacedBy c), ∀ b ∈ found.map (·.replacedBy c),
      a.name = b.name → a = b := by
    intro a ha b hb hname
    rw [← hfound] at ha hb
    obtain ⟨_, _, ha⟩ := List.mem_filterMap.mp ha
    obtain ⟨_, _, hb⟩ := List.mem_filterMap.mp hb
    exact (hwf'.eq_of_name ha hb hname).2
  have hperm : (found.map (·.replacedBy c)).Perm ((t.categoriesOf version).map (·.replacedBy c)) :=
    (sortByName_perm found).symm.map _
  exact (congrArg sortByName hfound).trans (sortByName_congr hperm hnames)

/-! ## Requests for a post -/

/-- What is shown of a post, if anything is. -/
def Tables.shown? (t : Tables) (id : Uuid) : Option PostDetail :=
  (t.currentPost? id).map fun row => .of row (t.categoriesOf row.version)

/-- How a request for a post is answered. -/
def Tables.shown (t : Tables) (id : Uuid) : Except Error Reply :=
  match t.shown? id with
  | some d => .ok (.detail d)
  | none => .error (.postNotFound id)

theorem Tables.shown_of_found {t : Tables} {id : Uuid} {row : CurrentPost}
    {categories : List Category} (hrow : t.currentPost? id = some row)
    (hfound : ((t.linksOf row.version).filterMap fun l =>
      t.categories.get? l.category).Perm categories)
    (hsorted : categories.Pairwise fun a b => a.name < b.name) :
    t.shown id = .ok (.detail (.of row categories)) := by
  have hcategories : t.categoriesOf row.version = categories := sortByName_eq hfound hsorted
  simp only [shown, shown?, hrow, Option.map_some, hcategories]

/-- A post in full, with a category that is written anew in the place of what it was. -/
def PostDetail.withCategory (d : PostDetail) (c : Category) : PostDetail :=
  { d with categories := sortByName (d.categories.map (·.replacedBy c)) }

/-- A post that was shown is shown with a category that is written anew. -/
theorem Tables.WellFormed.shown_rewritten {t : Tables} {before c : Category} {id : Uuid}
    {d : PostDetail} (hwf : t.WellFormed) (hwf' : (t.withCategory c).WellFormed)
    (hbefore : t.categories.get? c.id = some before) (hshown : t.shown id = .ok (.detail d)) :
    (t.withCategory c).shown id = .ok (.detail (d.withCategory c)) := by
  have hrow : (t.withCategory c).currentPost? id = t.currentPost? id := rfl
  unfold Tables.shown Tables.shown? at hshown ⊢
  rw [hrow]
  cases hcurrent : t.currentPost? id with
  | none =>
    rw [hcurrent] at hshown
    cases hshown
  | some row =>
    rw [hcurrent] at hshown
    cases hshown
    simp only [Option.map_some, hwf.categoriesOf_rewritten hwf' hbefore]
    rfl

theorem Operation.effect_getPost (sanitizer : Sanitizer) (id : Uuid) (now : Instant)
    (fresh : Nat → Uuid) (t : Tables) :
    ((getPost id).effect sanitizer now fresh t).answer = t.shown id := by
  have hquery : (Task.query (.currentPost id)).eval now fresh ⟨t, 0, []⟩ =
      (.ok (t.currentPost? id), ⟨t, 0, []⟩) := rfl
  simp only [effect, plan, Plan.effect, Task.eval_map, Posts.get, Task.eval_bind_ok hquery,
    Tables.shown, Tables.shown?]
  cases t.currentPost? id <;> rfl

/-- A request for a post that meets no fault. -/
theorem perform_getPost (s : Surroundings) (sanitizer : Sanitizer) (id : Uuid) {w : World}
    {t : Tables} (hfree : w.store.Free t)
    (hcalm : s.Calm w.trace ((Operation.getPost id).perform s sanitizer w).2.trace) :
    ((Operation.getPost id).perform s sanitizer w).1 = .answered (t.shown id) := by
  rw [(perform_of_calm hfree hcalm).1, Operation.effect_getPost]

end Weblog
