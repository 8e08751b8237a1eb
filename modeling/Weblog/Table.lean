import Weblog.Uuid.Basic

/-!
# Tables

A table maps keys to rows. It is kept as the list of its entries in ascending order of their keys,
so that a table with the same rows is the same table, and the order of its entries says nothing
about the order in which they came.
-/

namespace Weblog

/-- Types of keys: each key has a rank of its own, by which keys are ordered. -/
class Key (κ : Type) where
  rank : κ → Nat
  rank_inj : ∀ {a b : κ}, rank a = rank b → a = b

instance : Key Uuid where
  rank := Uuid.value
  rank_inj := Uuid.ext

/-- Pairs of identifiers are ordered by their first parts, then by their second. -/
instance : Key (Uuid × Uuid) where
  rank := fun key => key.1.value <<< 128 + key.2.value
  rank_inj := by
    rintro ⟨a, b⟩ ⟨c, d⟩ h
    have hb := b.value_lt
    have hd := d.value_lt
    have h1 : a.value = c.value := by simp only at h; omega
    have h2 : b.value = d.value := by simp only at h; omega
    rw [Uuid.ext h1, Uuid.ext h2]

/-- Keys with their rows, in ascending order of the keys. -/
structure Table (κ α : Type) [Key κ] where
  entries : List (κ × α)
  sorted : entries.Pairwise fun a b => Key.rank a.1 < Key.rank b.1

namespace Table

variable {κ α : Type} [Key κ]

/-- Puts a row under a key into entries, in place of the row that was there. -/
def insertEntry (key : κ) (row : α) : List (κ × α) → List (κ × α)
  | [] => [(key, row)]
  | (k, r) :: rest =>
    if Key.rank key < Key.rank k then (key, row) :: (k, r) :: rest
    else if Key.rank key = Key.rank k then (key, row) :: rest
    else (k, r) :: insertEntry key row rest

theorem mem_insertEntry {key : κ} {row : α} {e : κ × α} {entries : List (κ × α)}
    (h : e ∈ insertEntry key row entries) : e = (key, row) ∨ e ∈ entries := by
  induction entries with
  | nil => simpa [insertEntry] using h
  | cons head rest ih =>
    obtain ⟨k, r⟩ := head
    rw [insertEntry] at h
    split at h
    · simpa using h
    · split at h
      · rcases List.mem_cons.mp h with h | h
        · exact .inl h
        · exact .inr (List.mem_cons_of_mem _ h)
      · rcases List.mem_cons.mp h with h | h
        · exact .inr (h ▸ List.mem_cons_self)
        · exact (ih h).imp id (List.mem_cons_of_mem _)

theorem sorted_insertEntry (key : κ) (row : α) {entries : List (κ × α)}
    (h : entries.Pairwise fun a b => Key.rank a.1 < Key.rank b.1) :
    (insertEntry key row entries).Pairwise fun a b => Key.rank a.1 < Key.rank b.1 := by
  induction entries with
  | nil => simp [insertEntry]
  | cons head rest ih =>
    obtain ⟨k, r⟩ := head
    obtain ⟨hhead, hrest⟩ := List.pairwise_cons.mp h
    rw [insertEntry]
    split
    · rename_i hlt
      refine List.pairwise_cons.mpr ⟨fun e he => ?_, h⟩
      rcases List.mem_cons.mp he with rfl | he
      · exact hlt
      · exact Nat.lt_trans hlt (hhead e he)
    · split
      · rename_i heq
        exact List.pairwise_cons.mpr ⟨fun e he => heq ▸ hhead e he, hrest⟩
      · rename_i hlt hne
        refine List.pairwise_cons.mpr ⟨fun e he => ?_, ih hrest⟩
        rcases mem_insertEntry he with rfl | he
        · simp only
          omega
        · exact hhead e he

def empty : Table κ α :=
  ⟨[], .nil⟩

def get? (t : Table κ α) (key : κ) : Option α :=
  (t.entries.find? fun e => Key.rank e.1 = Key.rank key).map (·.2)

def contains (t : Table κ α) (key : κ) : Bool :=
  (t.get? key).isSome

/-- Puts a row under a key, in place of the row that was there. -/
def insert (t : Table κ α) (key : κ) (row : α) : Table κ α :=
  ⟨insertEntry key row t.entries, sorted_insertEntry key row t.sorted⟩

def erase (t : Table κ α) (key : κ) : Table κ α :=
  ⟨t.entries.filter fun e => Key.rank e.1 ≠ Key.rank key, t.sorted.filter _⟩

/-- Makes the row under a key what it was, or removes it if there was none. -/
def restore (t : Table κ α) (key : κ) : Option α → Table κ α
  | some row => t.insert key row
  | none => t.erase key

/-- The keys, in ascending order. -/
def keys (t : Table κ α) : List κ :=
  t.entries.map (·.1)

/-- The rows, in ascending order of their keys. -/
def rows (t : Table κ α) : List α :=
  t.entries.map (·.2)

end Table

end Weblog
