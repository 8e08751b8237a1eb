import Mathlib.Data.Finset.Card
import Mathlib.Data.Finset.Dedup
import Weblog.Proofs.Plan
import Weblog.Proofs.Store.WellFormed

/-!
# Links that are added together

Links are added one by one, and each of them finds what those before it wrote. Still the outcome can
be told from the tables before the first of them.

* `Tables.get?_links_attach`, `Tables.attach_eq_ok_iff`: a pair that is stored keeps its row,
  another gets the row of its first link, and as many pairs as were missing are counted.
* `Transaction.attach_append`: a list may be cut anywhere.
* `attach_laws` (the laws of a call): with them, what a bad link leaves behind, that a second call
  with the same links does nothing, and that the order of good links does not matter.

A request that is valid asks for links of different pairs (`AttachCategories.nodup_of_valid`).
-/

namespace Weblog

/-- Nothing is repeated exactly if nothing occurs twice and nothing was seen before. -/
theorem repeats_eq_nil_iff {α : Type} [DecidableEq α] {l seen : List α} :
    repeats seen l = [] ↔ l.Nodup ∧ ∀ a ∈ l, a ∉ seen := by
  induction l generalizing seen with
  | nil => exact ⟨fun _ => ⟨List.nodup_nil, by simp⟩, fun _ => rfl⟩
  | cons a rest ih =>
    rw [repeats, List.nodup_cons, List.forall_mem_cons]
    split
    · rename_i hseen
      constructor
      · intro h
        cases h
      · rintro ⟨-, hnew, -⟩
        exact absurd hseen hnew
    · rename_i hnew
      rw [ih]
      constructor
      · rintro ⟨hnodup, hunseen⟩
        exact ⟨⟨fun hmem => hunseen a hmem List.mem_cons_self, hnodup⟩, hnew,
          fun b hb hmem => hunseen b hb (List.mem_cons_of_mem _ hmem)⟩
      · rintro ⟨⟨hfirst, hnodup⟩, -, hunseen⟩
        refine ⟨hnodup, fun b hb hmem => ?_⟩
        rcases List.mem_cons.mp hmem with rfl | hmem
        · exact hfirst hb
        · exact hunseen b hb hmem

/-- A valid request names no category twice. -/
theorem AttachCategories.nodup_of_valid {r : AttachCategories} (h : r.validate = .ok ()) :
    r.categories.Nodup := by
  simp only [validate] at h
  split at h
  · cases h
  · split at h
    · rename_i hrepeats
      exact (repeats_eq_nil_iff.mp hrepeats).1
    · cases h

namespace Tables

/-! ## Good links and bad ones -/

/-- The version and the category that a link joins are there. -/
def Joins (t : Tables) (l : Link) : Prop :=
  t.versions.contains l.version = true ∧ t.categories.contains l.category = true

instance (t : Tables) (l : Link) : Decidable (t.Joins l) :=
  inferInstanceAs (Decidable (_ ∧ _))

/-- What a link that cannot be added misses: its version, or else its category. -/
def missing (t : Tables) (l : Link) : Error :=
  if t.versions.contains l.version then .categoryNotFound l.category
  else .versionNotFound l.version

/-- The pairs of some links that are not stored. -/
def newPairs (t : Tables) (links : List Link) : Finset (Uuid × Uuid) :=
  (links.map Link.pair).toFinset.filter fun key => t.links.contains key = false

/-- If not all of some links are good, one of them is the first bad one. -/
theorem exists_first_bad {t : Tables} {links : List Link} (h : ¬ ∀ l ∈ links, t.Joins l) :
    ∃ before l after, links = before ++ l :: after ∧ (∀ b ∈ before, t.Joins b) ∧ ¬ t.Joins l := by
  cases hfind : links.find? fun l => !decide (t.Joins l) with
  | none =>
    have hall := List.find?_eq_none.mp hfind
    exact absurd (fun l hl => by simpa using hall l hl) h
  | some l =>
    obtain ⟨hbad, before, after, hlinks, hbefore⟩ := List.find?_eq_some_iff_append.mp hfind
    exact ⟨before, l, after, hlinks, fun b hb => by simpa using hbefore b hb, by simpa using hbad⟩

/-! ## What is there afterwards -/

variable {t t' : Tables} {l : Link} {links : List Link} {n : Nat}

/-- Good links stay good when others are added, and bad ones go on to miss the same. -/
theorem joins_attach (t : Tables) (links : List Link) (l : Link) :
    ((t.attach links).2.Joins l ↔ t.Joins l) ∧ (t.attach links).2.missing l = t.missing l := by
  rw [attach_writes]
  exact ⟨Iff.rfl, rfl⟩

/-- A good link is added unless its pair is stored, and then the others are. -/
theorem attach_cons (hl : t.Joins l) :
    t.attach (l :: links) = if t.links.contains l.pair then t.attach links
      else (((t.withLink l).attach links).1.map (· + 1), ((t.withLink l).attach links).2) := by
  rw [attach, hl.1, hl.2]
  rfl

theorem get?_links_withLink (t : Tables) (l : Link) (key : Uuid × Uuid) :
    (t.withLink l).links.get? key = if key = l.pair then some l else t.links.get? key :=
  Table.get?_insert _ _ _ _

theorem contains_links_withLink (t : Tables) (l : Link) (key : Uuid × Uuid) :
    (t.withLink l).links.contains key = (decide (key = l.pair) || t.links.contains key) := by
  unfold Table.contains
  rw [get?_links_withLink]
  by_cases hkey : key = l.pair
  · simp [hkey]
  · simp [hkey]

/-- A pair that is stored keeps its row, and another gets the row of its first link. -/
theorem get?_links_attach (hlinks : ∀ l ∈ links, t.Joins l) (key : Uuid × Uuid) :
    (t.attach links).2.links.get? key =
      (t.links.get? key).or (links.find? fun l => l.pair = key) := by
  induction links generalizing t with
  | nil => exact Option.or_none.symm
  | cons l rest ih =>
    obtain ⟨hl, hrest⟩ := List.forall_mem_cons.mp hlinks
    rw [attach_cons hl, List.find?_cons]
    split
    · rename_i hthere
      rw [ih hrest]
      by_cases hkey : l.pair = key
      · obtain ⟨stored, hstored⟩ := Table.contains_iff.mp hthere
        rw [← hkey, hstored, Option.some_or, Option.some_or]
      · simp only [hkey, decide_false]
    · rename_i hnew
      have hunstored : t.links.get? l.pair = none :=
        Table.contains_eq_false_iff.mp (Bool.eq_false_iff.mpr hnew)
      refine (ih (t := t.withLink l) hrest).trans ?_
      rw [get?_links_withLink]
      by_cases hkey : l.pair = key
      · subst hkey
        simp only [if_true, decide_true, hunstored, Option.some_or, Option.none_or]
      · simp only [if_neg (Ne.symm hkey), hkey, decide_false]

/-- Afterwards the pairs that were stored are, and those of the links. -/
theorem contains_links_attach (hlinks : ∀ l ∈ links, t.Joins l) (key : Uuid × Uuid) :
    (t.attach links).2.links.contains key = true ↔
      t.links.contains key = true ∨ key ∈ links.map Link.pair := by
  unfold Table.contains
  rw [get?_links_attach hlinks, Option.isSome_or, Bool.or_eq_true, List.find?_isSome, List.mem_map]
  simp only [decide_eq_true_eq]

/-! ## What is counted -/

/-- If the first of some pairs is stored, only the others can be new. -/
theorem newPairs_cons_of_stored (h : t.links.contains l.pair = true) :
    t.newPairs (l :: links) = t.newPairs links := by
  unfold newPairs
  rw [List.map_cons, List.toFinset_cons, Finset.filter_insert, if_neg (by simp [h])]

/-- If the first of some pairs is not stored, it is new, and new beside it are those that are not
stored when it is. -/
theorem newPairs_cons_of_new (h : t.links.contains l.pair = false) :
    t.newPairs (l :: links) = insert l.pair ((t.withLink l).newPairs links) := by
  ext key
  simp only [newPairs, Finset.mem_insert, Finset.mem_filter, List.mem_toFinset, List.map_cons,
    List.mem_cons, contains_links_withLink, Bool.or_eq_false_iff, decide_eq_false_iff_not]
  by_cases hkey : key = l.pair
  · simp [hkey, h]
  · simp [hkey]

theorem notMem_newPairs_withLink (t : Tables) (l : Link) (links : List Link) :
    l.pair ∉ (t.withLink l).newPairs links := by
  simp [newPairs, contains_links_withLink]

/-- Of good links as many are counted as there are pairs among them that were not stored. -/
theorem attach_of_joins (hlinks : ∀ l ∈ links, t.Joins l) :
    (t.attach links).1 = .ok (t.newPairs links).card := by
  induction links generalizing t with
  | nil => rfl
  | cons l rest ih =>
    obtain ⟨hl, hrest⟩ := List.forall_mem_cons.mp hlinks
    rw [attach_cons hl]
    split
    · rename_i hthere
      rw [ih hrest, newPairs_cons_of_stored hthere]
    · rename_i hnew
      have hcard : (t.newPairs (l :: rest)).card = ((t.withLink l).newPairs rest).card + 1 := by
        rw [newPairs_cons_of_new (Bool.eq_false_iff.mpr hnew),
          Finset.card_insert_of_notMem (t.notMem_newPairs_withLink l rest)]
      rw [hcard]
      exact congrArg (Except.map (· + 1)) (ih (t := t.withLink l) hrest)

end Tables

/-! ## Calls -/

namespace Transaction

variable {tx : Transaction} {l : Link} {links : List Link} {count : Nat}

theorem joins_attach (tx : Transaction) (count : Nat) (links : List Link) (l : Link) :
    ((tx.attach count links).2.tables.Joins l ↔ tx.tables.Joins l) ∧
      (tx.attach count links).2.tables.missing l = tx.tables.missing l := by
  rw [(tx.attach_eq count links).2.1]
  exact tx.tables.joins_attach links l

/-- A link that misses something ends the call, and nothing is written. -/
theorem attach_cons_of_not_joins (hl : ¬ tx.tables.Joins l) :
    tx.attach count (l :: links) = (.error (tx.tables.missing l), tx) := by
  rw [attach, Tables.missing]
  cases hversion : tx.tables.versions.contains l.version with
  | false => rfl
  | true =>
    have hcategory : tx.tables.categories.contains l.category = false :=
      Bool.eq_false_iff.mpr fun hcategory => hl ⟨hversion, hcategory⟩
    rw [hcategory]
    rfl

/-- What is counted already is only added to what is counted. -/
theorem attach_add (tx : Transaction) (m count : Nat) (links : List Link) :
    tx.attach (m + count) links =
      ((tx.attach count links).1.map (m + ·), (tx.attach count links).2) := by
  induction links generalizing tx count with
  | nil => rfl
  | cons l rest ih =>
    rw [attach, attach]
    split
    · rfl
    · split
      · rfl
      · split
        · exact ih tx count
        · exact ih (tx.putLink l) (count + 1)

/-- **Cutting.** The links of a list are added up to any place and then from there, unless one of
the first part is bad. -/
theorem attach_append (tx : Transaction) (count : Nat) (links later : List Link) :
    tx.attach count (links ++ later) = match tx.attach count links with
      | (.ok m, tx') => tx'.attach m later
      | (.error e, tx') => (.error e, tx') := by
  induction links generalizing tx count with
  | nil => rfl
  | cons l rest ih =>
    rw [List.cons_append, attach, attach]
    split
    · rfl
    · split
      · rfl
      · split
        · exact ih tx count
        · exact ih (tx.putLink l) (count + 1)

theorem attach_of_joins (hlinks : ∀ l ∈ links, tx.tables.Joins l) :
    (tx.attach count links).1 = .ok (count + (tx.tables.newPairs links).card) := by
  rw [(tx.attach_eq count links).1, Tables.attach_of_joins hlinks]
  rfl

/-- The first bad link ends the call, and the links before it have been added. -/
theorem attach_of_first_bad {before after : List Link} (hbefore : ∀ b ∈ before, tx.tables.Joins b)
    (hl : ¬ tx.tables.Joins l) :
    tx.attach count (before ++ l :: after) =
      (.error (tx.tables.missing l), (tx.attach count before).2) := by
  have hcounted : (tx.attach count before).1 = _ := attach_of_joins hbefore
  obtain ⟨hjoins, hmissing⟩ := tx.joins_attach count before l
  rw [attach_append]
  generalize tx.attach count before = first at hcounted hjoins hmissing ⊢
  obtain ⟨result, tx'⟩ := first
  cases hcounted
  rw [← hmissing]
  exact attach_cons_of_not_joins (mt hjoins.mp hl)

/-- Only good links are all added. -/
theorem joins_of_attach {n : Nat} (h : (tx.attach count links).1 = .ok n) :
    ∀ l ∈ links, tx.tables.Joins l := by
  by_contra hlinks
  obtain ⟨before, l, after, rfl, hbefore, hl⟩ := Tables.exists_first_bad hlinks
  rw [attach_of_first_bad hbefore hl] at h
  cases h

/-- A link whose pair is stored is not written anew. -/
theorem attach_of_stored
    (hlinks : ∀ l ∈ links, tx.tables.Joins l ∧ tx.tables.links.contains l.pair = true) :
    tx.attach count links = (.ok count, tx) := by
  induction links with
  | nil => rfl
  | cons l rest ih =>
    obtain ⟨⟨⟨hversion, hcategory⟩, hthere⟩, hrest⟩ := List.forall_mem_cons.mp hlinks
    have hstored : tx.tables.links.contains (l.version, l.category) = true := hthere
    rw [attach, hversion, hcategory, hstored]
    exact ih hrest

/-- Good links that were added are stored, so that adding them again does nothing. -/
theorem attach_again_of_joins (hlinks : ∀ l ∈ links, tx.tables.Joins l) (m count : Nat) :
    (tx.attach count links).2.attach m links = (.ok m, (tx.attach count links).2) := by
  apply attach_of_stored
  intro l hl
  refine ⟨(tx.joins_attach count links l).1.mpr (hlinks l hl), ?_⟩
  rw [(tx.attach_eq count links).2.1]
  exact (Tables.contains_links_attach hlinks _).mpr (.inr (List.mem_map_of_mem hl))

/-- A second call with the same links answers what the first did, but counts none, and changes
nothing. -/
theorem attach_again (tx : Transaction) (links : List Link) :
    (tx.attach 0 links).2.attach 0 links =
      ((tx.attach 0 links).1.map fun _ => 0, (tx.attach 0 links).2) := by
  by_cases hlinks : ∀ l ∈ links, tx.tables.Joins l
  · rw [attach_again_of_joins hlinks, attach_of_joins hlinks]
    rfl
  · obtain ⟨before, l, after, rfl, hbefore, hl⟩ := Tables.exists_first_bad hlinks
    obtain ⟨hjoins, hmissing⟩ := tx.joins_attach 0 before l
    have hsame : ∀ b ∈ before, (tx.attach 0 before).2.tables.Joins b := fun b hb =>
      (tx.joins_attach 0 before b).1.mpr (hbefore b hb)
    have hagain := attach_again_of_joins hbefore 0 0
    rw [attach_of_first_bad hbefore hl]
    dsimp only
    rw [attach_of_first_bad hsame (mt hjoins.mp hl), hagain, hmissing]
    rfl

end Transaction

namespace Tables

variable {t t' : Tables} {links links' : List Link} {n : Nat}

theorem attach_eq_ok_iff :
    (t.attach links).1 = .ok n ↔ (∀ l ∈ links, t.Joins l) ∧ n = (t.newPairs links).card := by
  constructor
  · intro h
    have hcall := (Transaction.attach_eq ⟨t, []⟩ 0 links).1
    rw [h] at hcall
    have hlinks : ∀ l ∈ links, t.Joins l := Transaction.joins_of_attach hcall
    refine ⟨hlinks, ?_⟩
    rw [attach_of_joins hlinks] at h
    exact (Except.ok.inj h).symm
  · rintro ⟨hlinks, rfl⟩
    exact attach_of_joins hlinks

/-- Links of different pairs that were added are there, and those that were not there before have
been counted. -/
theorem of_attach (h : t.attach links = (.ok n, t')) (hpairs : (links.map Link.pair).Nodup) :
    n = links.countP (fun l => !t.links.contains l.pair) ∧
      ∀ l ∈ links, t'.links.contains l.pair = true := by
  obtain ⟨hlinks, rfl⟩ := attach_eq_ok_iff.mp (congrArg Prod.fst h)
  refine ⟨?_, fun l hl => ?_⟩
  · have hfilter : t.newPairs links =
        ((links.map Link.pair).filter fun key => !t.links.contains key).toFinset := by
      simp [newPairs, List.toFinset_filter]
    rw [hfilter, List.toFinset_card_of_nodup (hpairs.filter _), ← List.countP_eq_length_filter,
      List.countP_map]
    rfl
  · have hlast : (t.attach links).2 = t' := congrArg Prod.snd h
    exact hlast ▸ (contains_links_attach hlinks l.pair).mpr (.inr (List.mem_map_of_mem hl))

/-- The order of good links changes neither how many are counted nor which pairs are stored. -/
theorem attach_perm (hperm : links.Perm links') (hlinks : ∀ l ∈ links, t.Joins l) :
    (t.attach links').1 = (t.attach links).1 ∧
      ∀ key, (t.attach links').2.links.contains key = (t.attach links).2.links.contains key := by
  have hlinks' : ∀ l ∈ links', t.Joins l := fun l hl => hlinks l (hperm.mem_iff.mpr hl)
  have hpairs : (links.map Link.pair).Perm (links'.map Link.pair) := hperm.map _
  constructor
  · have hsame : t.newPairs links' = t.newPairs links := by
      unfold newPairs
      rw [List.toFinset_eq_of_perm _ _ hpairs]
    rw [attach_of_joins hlinks', attach_of_joins hlinks, hsame]
  · intro key
    rw [Bool.eq_iff_iff, contains_links_attach hlinks', contains_links_attach hlinks,
      hpairs.mem_iff]

end Tables

/-! ## The laws -/

/-- **The laws of adding links.** Whatever a transaction has written so far and whatever links it is
asked to add: the call counts exactly when the version and the category of every link are there, and
then it counts the pairs among the links that were not stored; a pair that was stored keeps its row,
another gets the row of its first link, and nothing else is written. Otherwise the first bad link
says what it misses, its version before its category, and the transaction is what adding the links
before it makes of it. A list may be cut anywhere, and the counts of the parts are added. A second
call with the same links counts none and changes nothing. The order of good links matters neither to
the count nor to the pairs that are stored. -/
theorem attach_laws (tx : Transaction) (links : List Link) :
    let t := tx.tables
    let ran := tx.perform (.attach links)
    (∀ n, ran.1 = .ok n ↔ (∀ l ∈ links, t.Joins l) ∧ n = (t.newPairs links).card) ∧
    ((∀ l ∈ links, t.Joins l) →
      ran.2.tables = { t with links := ran.2.tables.links } ∧
      ∀ key, ran.2.tables.links.get? key =
        (t.links.get? key).or (links.find? fun l => l.pair = key)) ∧
    ((¬ ∀ l ∈ links, t.Joins l) →
      ∃ before l after, links = before ++ l :: after ∧ (∀ b ∈ before, t.Joins b) ∧ ¬ t.Joins l ∧
        ran = (.error (t.missing l), (tx.perform (.attach before)).2)) ∧
    (∀ later, tx.perform (.attach (links ++ later)) = match ran with
      | (.ok m, tx') =>
        ((tx'.perform (.attach later)).1.map (m + ·), (tx'.perform (.attach later)).2)
      | (.error e, tx') => (.error e, tx')) ∧
    ran.2.perform (.attach links) = (ran.1.map fun _ => 0, ran.2) ∧
    (∀ links', links.Perm links' → (∀ l ∈ links, t.Joins l) →
      (tx.perform (.attach links')).1 = ran.1 ∧
      ∀ key, (tx.perform (.attach links')).2.tables.links.contains key =
        ran.2.tables.links.contains key) := by
  intro t ran
  obtain ⟨hanswer, htables, -⟩ := tx.perform_eq (.attach links)
  have hfirst : ran.1 = (t.attach links).1 := hanswer
  have hwritten : ran.2.tables = (t.attach links).2 := htables
  refine ⟨fun n => ?_, fun hlinks => ⟨?_, fun key => ?_⟩, fun hlinks => ?_, fun later => ?_, ?_,
    fun links' hperm hlinks => ?_⟩
  · rw [hfirst]
    exact Tables.attach_eq_ok_iff
  · rw [hwritten]
    exact t.attach_writes links
  · rw [hwritten]
    exact Tables.get?_links_attach hlinks key
  · obtain ⟨before, l, after, rfl, hbefore, hl⟩ := Tables.exists_first_bad hlinks
    exact ⟨before, l, after, rfl, hbefore, hl, Transaction.attach_of_first_bad hbefore hl⟩
  · have hcut := tx.attach_append 0 links later
    cases hran : tx.attach 0 links with
    | mk result tx' =>
      have hran' : ran = (result, tx') := hran
      rw [hran] at hcut
      rw [hran']
      cases result with
      | error e => exact hcut
      | ok m => exact hcut.trans (tx'.attach_add m 0 later)
  · exact tx.attach_again links
  · obtain ⟨hanswer', htables', -⟩ := tx.perform_eq (.attach links')
    obtain ⟨hcount, hpairs⟩ := Tables.attach_perm hperm hlinks
    rw [hwritten]
    refine ⟨hanswer'.trans (hcount.trans hfirst.symm), fun key => ?_⟩
    rw [htables']
    exact hpairs key

end Weblog
