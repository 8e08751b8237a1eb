import Weblog.Proofs.Table

/-!
# Constraints on tables

Three kinds of constraints that rows can be put under: they are stored under a key of their own
(`KeyedBy`), no two of them have the same value of something (`Distinct`), and what they refer to is
a row of some table (`Refers`). Each is kept when rows are removed, and when one is written that
obeys it.
-/

namespace Weblog.Table

variable {κ κ' α β γ : Type} [Key κ] [Key κ'] {t : Table κ α} {u : Table κ' β}

/-- Every row is stored under its own key. -/
def KeyedBy (key : α → κ) (t : Table κ α) : Prop :=
  ∀ k row, t.get? k = some row → key row = k

/-- No two rows agree in something. -/
def Distinct (f : α → γ) (t : Table κ α) : Prop :=
  (t.rows.map f).Nodup

/-- Every row refers to a row of another table. -/
def Refers (f : α → κ') (t : Table κ α) (u : Table κ' β) : Prop :=
  ∀ k row, t.get? k = some row → u.contains (f row) = true

theorem distinct_iff {f : α → γ} : t.Distinct f ↔
    ∀ k k' row row', t.get? k = some row → t.get? k' = some row' → f row = f row' → k = k' := by
  unfold Distinct rows
  rw [List.map_map, List.Nodup, List.pairwise_map]
  constructor
  · intro h k k' row row' hget hget' heq
    have hmem := get?_eq_some_iff.mp hget
    have hmem' := get?_eq_some_iff.mp hget'
    obtain ⟨i, hi, hik⟩ := List.mem_iff_getElem.mp hmem
    obtain ⟨j, hj, hjk⟩ := List.mem_iff_getElem.mp hmem'
    have hpairwise := List.pairwise_iff_getElem.mp h
    rcases Nat.lt_trichotomy i j with hlt | rfl | hgt
    · have hne := hpairwise i j hi hj hlt
      rw [hik, hjk] at hne
      exact absurd heq hne
    · exact congrArg Prod.fst (hik.symm.trans hjk)
    · have hne := hpairwise j i hj hi hgt
      rw [hik, hjk] at hne
      exact absurd heq.symm hne
  · intro h
    refine t.sorted.imp_of_mem fun {a b} ha hb hlt heq => ?_
    have hkey := h a.1 b.1 a.2 b.2 (get?_eq_some_iff.mpr ha) (get?_eq_some_iff.mpr hb) heq
    rw [hkey] at hlt
    exact absurd hlt (Nat.lt_irrefl _)

/-- A row that is stored under its own key is there exactly if it is found under that key. -/
theorem KeyedBy.mem_rows_iff {key : α → κ} (h : t.KeyedBy key) {row : α} :
    row ∈ t.rows ↔ t.get? (key row) = some row := by
  rw [mem_rows]
  constructor
  · rintro ⟨k, hget⟩
    exact h k row hget ▸ hget
  · exact fun hget => ⟨_, hget⟩

/-- Rows that are stored under keys of their own differ in these. -/
theorem KeyedBy.distinct {key : α → κ} (h : t.KeyedBy key) : t.Distinct key := by
  apply distinct_iff.mpr
  intro k k' row row' hget hget' heq
  rw [← h k row hget, ← h k' row' hget', heq]

section

variable [DecidableEq κ] [DecidableEq κ']

theorem get?_insert_cases {key k : κ} {row row' : α} (h : (t.insert key row).get? k = some row') :
    k = key ∧ row' = row ∨ k ≠ key ∧ t.get? k = some row' := by
  rw [get?_insert] at h
  by_cases hk : k = key
  · rw [if_pos hk] at h
    exact .inl ⟨hk, (Option.some.inj h).symm⟩
  · rw [if_neg hk] at h
    exact .inr ⟨hk, h⟩

theorem get?_of_erase {key k : κ} {row : α} (h : (t.erase key).get? k = some row) :
    t.get? k = some row := by
  rw [get?_erase] at h
  split at h
  · cases h
  · exact h

omit [DecidableEq κ] in
theorem get?_of_eraseWhere {p : κ → Bool} {k : κ} {row : α}
    (h : (t.eraseWhere p).get? k = some row) : p k = false ∧ t.get? k = some row := by
  rw [get?_eraseWhere] at h
  split at h
  · cases h
  · rename_i hp
    exact ⟨Bool.eq_false_iff.mpr hp, h⟩

theorem contains_insert {key k : κ} (row : α) (h : t.contains k = true) :
    (t.insert key row).contains k = true := by
  obtain ⟨row', hget⟩ := contains_iff.mp h
  by_cases hk : k = key
  · exact contains_iff.mpr ⟨row, by rw [get?_insert, if_pos hk]⟩
  · exact contains_iff.mpr ⟨row', by rw [get?_insert, if_neg hk, hget]⟩

theorem contains_erase {key k : κ} (hne : k ≠ key) (h : t.contains k = true) :
    (t.erase key).contains k = true := by
  obtain ⟨row, hget⟩ := contains_iff.mp h
  exact contains_iff.mpr ⟨row, by rw [get?_erase, if_neg hne, hget]⟩

/-! ## Writing a row -/

theorem KeyedBy.insert {key : α → κ} (h : t.KeyedBy key) (row : α) :
    (t.insert (key row) row).KeyedBy key := by
  intro k row' hget
  rcases get?_insert_cases hget with ⟨rfl, rfl⟩ | ⟨-, hget⟩
  · rfl
  · exact h k row' hget

theorem Distinct.insert {f : α → γ} {key : κ} {row : α} (h : t.Distinct f)
    (hrow : ∀ k row', t.get? k = some row' → f row' = f row → k = key) :
    (t.insert key row).Distinct f := by
  have hold := distinct_iff.mp h
  apply distinct_iff.mpr
  intro k k' row₁ row₂ hget₁ hget₂ heq
  rcases get?_insert_cases hget₁ with ⟨hk, hrow₁⟩ | ⟨-, hget₁⟩ <;>
    rcases get?_insert_cases hget₂ with ⟨hk', hrow₂⟩ | ⟨-, hget₂⟩
  · exact hk.trans hk'.symm
  · exact hk.trans (hrow k' row₂ hget₂ (heq.symm.trans (congrArg f hrow₁))).symm
  · exact (hrow k row₁ hget₁ (heq.trans (congrArg f hrow₂))).trans hk'.symm
  · exact hold k k' row₁ row₂ hget₁ hget₂ heq

omit [DecidableEq κ'] in
theorem Refers.insert {f : α → κ'} {key : κ} {row : α} (h : t.Refers f u)
    (hrow : u.contains (f row) = true) : (t.insert key row).Refers f u := by
  intro k row' hget
  rcases get?_insert_cases hget with ⟨rfl, rfl⟩ | ⟨-, hget⟩
  · exact hrow
  · exact h k row' hget

omit [DecidableEq κ] in
/-- A table may be referred to by more than is there. -/
theorem Refers.insert_target {f : α → κ'} (h : t.Refers f u) (key : κ') (row : β) :
    t.Refers f (u.insert key row) := by
  intro k row' hget
  exact contains_insert row (h k row' hget)

/-! ## Removing rows -/

theorem KeyedBy.erase {key : α → κ} (h : t.KeyedBy key) (k : κ) : (t.erase k).KeyedBy key := by
  intro k' row hget
  exact h k' row (get?_of_erase hget)

omit [DecidableEq κ] in
theorem KeyedBy.eraseWhere {key : α → κ} (h : t.KeyedBy key) (p : κ → Bool) :
    (t.eraseWhere p).KeyedBy key := by
  intro k row hget
  exact h k row (get?_of_eraseWhere hget).2

theorem Distinct.erase {f : α → γ} (h : t.Distinct f) (key : κ) : (t.erase key).Distinct f := by
  have hold := distinct_iff.mp h
  apply distinct_iff.mpr
  intro k k' row row' hget hget'
  exact hold k k' row row' (get?_of_erase hget) (get?_of_erase hget')

omit [DecidableEq κ'] in
theorem Refers.erase {f : α → κ'} (h : t.Refers f u) (key : κ) : (t.erase key).Refers f u := by
  intro k row hget
  exact h k row (get?_of_erase hget)

omit [DecidableEq κ] [DecidableEq κ'] in
theorem Refers.eraseWhere {f : α → κ'} (h : t.Refers f u) (p : κ → Bool) :
    (t.eraseWhere p).Refers f u := by
  intro k row hget
  exact h k row (get?_of_eraseWhere hget).2

omit [DecidableEq κ] in
/-- A row may be removed when what refers to it goes too. -/
theorem Refers.erase_both {f : α → κ'} {p : κ → Bool} (h : t.Refers f u) (key : κ')
    (hp : ∀ k row, t.get? k = some row → f row = key → p k = true) :
    (t.eraseWhere p).Refers f (u.erase key) := by
  intro k row hget
  obtain ⟨hkept, hget⟩ := get?_of_eraseWhere hget
  have hne : f row ≠ key := by
    intro heq
    rw [hp k row hget heq] at hkept
    cases hkept
  exact contains_erase hne (h k row hget)

end

end Weblog.Table
