import Weblog.Table

/-!
# Laws of tables

What a table holds under a key after rows were put into it and removed from it, and that a table is
told by what it holds. The last section has the laws that an undo record needs: when the row under
a key is made what it was before it was written or removed, the table is what it was.
-/

namespace Weblog.Table

variable {κ α β : Type} [Key κ]

theorem rank_eq_iff {a b : κ} : Key.rank a = Key.rank b ↔ a = b :=
  ⟨Key.rank_inj, fun h => h ▸ rfl⟩

/-! ## Entries -/

/-- Looking up a key in entries into which a row was put. No order of the entries is needed. -/
theorem find?_insertEntry (key k : κ) (row : α) (entries : List (κ × α)) :
    (insertEntry key row entries).find? (fun e => Key.rank e.1 = Key.rank k) =
      if Key.rank k = Key.rank key then some (key, row)
      else entries.find? (fun e => Key.rank e.1 = Key.rank k) := by
  induction entries with
  | nil => by_cases h : Key.rank k = Key.rank key <;> simp [insertEntry, h, eq_comm]
  | cons head rest ih =>
    obtain ⟨k', r⟩ := head
    rw [insertEntry]
    by_cases h : Key.rank k = Key.rank key
    · simp only [h, if_true] at ih ⊢
      split
      · simp
      · split
        · simp
        · rename_i hne
          rw [List.find?_cons_of_neg (by simpa using fun h' => hne h'.symm)]
          exact ih
    · simp only [h, if_false] at ih ⊢
      split
      · rw [List.find?_cons_of_neg (by simpa using fun h' => h h'.symm)]
      · split
        · rename_i heq
          rw [List.find?_cons_of_neg (by simpa using fun h' => h h'.symm),
            List.find?_cons_of_neg (by simpa [← heq] using fun h' => h h'.symm)]
        · simp only [List.find?_cons, ih]

theorem find?_filter_key (p : κ → Bool) (k : κ) (entries : List (κ × α)) :
    (entries.filter fun e => p e.1).find? (fun e => Key.rank e.1 = Key.rank k) =
      if p k then entries.find? (fun e => Key.rank e.1 = Key.rank k) else none := by
  induction entries with
  | nil => simp
  | cons head rest ih =>
    by_cases hk : Key.rank head.1 = Key.rank k
    · obtain rfl := Key.rank_inj hk
      cases hp : p head.1 with
      | true => simp [hp]
      | false => simpa [hp] using ih
    · cases hp : p head.1 with
      | true => simpa [hp, hk] using ih
      | false => simpa [hp, hk] using ih

/-- In sorted entries every entry is found under its key. -/
theorem find?_of_mem {entries : List (κ × α)} {e : κ × α}
    (h : entries.Pairwise fun a b => Key.rank a.1 < Key.rank b.1) (he : e ∈ entries) :
    entries.find? (fun x => Key.rank x.1 = Key.rank e.1) = some e := by
  induction entries with
  | nil => cases he
  | cons head rest ih =>
    obtain ⟨hhead, hrest⟩ := List.pairwise_cons.mp h
    rcases List.mem_cons.mp he with rfl | he
    · simp
    · have hlt := hhead e he
      rw [List.find?_cons_of_neg (by simpa using Nat.ne_of_lt hlt)]
      exact ih hrest he

/-! ## Look-up -/

theorem get?_eq_some_iff {t : Table κ α} {k : κ} {row : α} :
    t.get? k = some row ↔ (k, row) ∈ t.entries := by
  constructor
  · intro h
    obtain ⟨⟨k', r⟩, hfind, rfl⟩ := Option.map_eq_some_iff.mp h
    have hk : Key.rank k' = Key.rank k := by simpa using List.find?_some hfind
    exact Key.rank_inj hk ▸ List.mem_of_find?_eq_some hfind
  · intro h
    rw [get?, find?_of_mem t.sorted h]
    rfl

theorem contains_iff {t : Table κ α} {k : κ} : t.contains k = true ↔ ∃ row, t.get? k = some row :=
  Option.isSome_iff_exists

theorem contains_eq_false_iff {t : Table κ α} {k : κ} : t.contains k = false ↔ t.get? k = none := by
  simp [contains]

theorem mem_rows {t : Table κ α} {row : α} : row ∈ t.rows ↔ ∃ k, t.get? k = some row := by
  simp only [rows, List.mem_map, Prod.exists, exists_eq_right, get?_eq_some_iff]

theorem mem_keys {t : Table κ α} {k : κ} : k ∈ t.keys ↔ ∃ row, t.get? k = some row := by
  simp only [keys, List.mem_map, Prod.exists, exists_and_right, exists_eq_right, get?_eq_some_iff]

/-- A table is told by what it holds under each key. -/
theorem ext_get? {t u : Table κ α} (h : ∀ k, t.get? k = u.get? k) : t = u := by
  have hmem : ∀ e, e ∈ t.entries ↔ e ∈ u.entries := fun e => by
    rw [← get?_eq_some_iff, ← get?_eq_some_iff, h]
  have nodup : ∀ x : Table κ α, x.entries.Nodup := fun x =>
    x.sorted.imp fun hlt heq => absurd (heq ▸ hlt) (Nat.lt_irrefl _)
  have hperm := (List.perm_ext_iff_of_nodup (nodup t) (nodup u)).mpr hmem
  have heq : t.entries = u.entries :=
    hperm.eq_of_pairwise (fun a b _ _ hab hba => absurd hab (Nat.lt_asymm hba)) t.sorted u.sorted
  cases t
  cases u
  cases heq
  rfl

@[simp] theorem get?_empty (k : κ) : (empty : Table κ α).get? k = none := rfl

section

variable [DecidableEq κ]

theorem get?_insert (t : Table κ α) (key k : κ) (row : α) :
    (t.insert key row).get? k = if k = key then some row else t.get? k := by
  unfold get? insert
  rw [find?_insertEntry]
  simp only [rank_eq_iff]
  split <;> rfl

@[simp] theorem get?_insert_self (t : Table κ α) (key : κ) (row : α) :
    (t.insert key row).get? key = some row := by
  rw [get?_insert, if_pos rfl]

theorem get?_erase (t : Table κ α) (key k : κ) :
    (t.erase key).get? k = if k = key then none else t.get? k := by
  unfold get? erase
  rw [find?_filter_key fun k => decide (Key.rank k ≠ Key.rank key)]
  by_cases h : k = key <;> simp [rank_eq_iff, h]

/-- Putting a row under a key that has one already forgets the row that was there. -/
theorem insert_insert (t : Table κ α) (key : κ) (row row' : α) :
    (t.insert key row).insert key row' = t.insert key row' :=
  ext_get? fun k => by
    simp only [get?_insert]
    split <;> rfl

end

/-! ## Removing many rows -/

/-- The table without the rows whose keys pass a test. -/
def eraseWhere (t : Table κ α) (p : κ → Bool) : Table κ α :=
  ⟨t.entries.filter fun e => !p e.1, t.sorted.filter _⟩

theorem get?_eraseWhere (t : Table κ α) (p : κ → Bool) (k : κ) :
    (t.eraseWhere p).get? k = if p k then none else t.get? k := by
  unfold get? eraseWhere
  rw [find?_filter_key fun k => !p k]
  cases p k <;> rfl

theorem get?_foldl_erase [DecidableEq κ] (keys : List κ) (t : Table κ α) (k : κ) :
    (keys.foldl erase t).get? k = if k ∈ keys then none else t.get? k := by
  induction keys generalizing t with
  | nil => rfl
  | cons key rest ih =>
    rw [List.foldl_cons, ih, get?_erase]
    by_cases hk : k = key <;> by_cases hr : k ∈ rest <;> simp [hk, hr]

/-- Removing the keys of a table that pass a test one by one removes them all. -/
theorem foldl_erase_keys [DecidableEq κ] (t : Table κ α) (p : κ → Bool) :
    (t.keys.filter p).foldl erase t = t.eraseWhere p := by
  refine ext_get? fun k => ?_
  rw [get?_foldl_erase, get?_eraseWhere]
  cases hp : p k with
  | false => simp [hp]
  | true =>
    cases hget : t.get? k with
    | none => simp
    | some row =>
      rw [if_pos (List.mem_filter.mpr ⟨mem_keys.mpr ⟨row, hget⟩, hp⟩), if_pos rfl]

/-! ## Making a row what it was -/

section

variable [DecidableEq κ]

theorem get?_restore (t : Table κ α) (key k : κ) (before : Option α) :
    (t.restore key before).get? k = if k = key then before else t.get? k := by
  cases before with
  | none => exact get?_erase t key k
  | some row => exact get?_insert t key k row

theorem restore_insert (t : Table κ α) (key : κ) (row : α) :
    (t.insert key row).restore key (t.get? key) = t :=
  ext_get? fun k => by
    rw [get?_restore, get?_insert]
    split <;> simp_all

theorem restore_erase (t : Table κ α) (key : κ) : (t.erase key).restore key (t.get? key) = t :=
  ext_get? fun k => by
    rw [get?_restore, get?_erase]
    split <;> simp_all

end

end Weblog.Table
