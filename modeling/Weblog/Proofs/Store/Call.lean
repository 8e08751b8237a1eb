import Weblog.Proofs.Table
import Weblog.Store.Basic

/-!
# Calls on bare tables

What a call answers and what it makes of the tables, said of tables that keep no record of how they
came about. A transaction does the same to its tables, and whatever it does, its record leads back
to the tables it began with (`Transaction.perform_eq`).
-/

namespace Weblog

namespace Tables

/-! ## Rows that are written and removed -/

def withPost (t : Tables) (p : Post) : Tables :=
  { t with posts := t.posts.insert p.id p }

def withVersion (t : Tables) (v : Version) : Tables :=
  { t with versions := t.versions.insert v.id v }

def withCategory (t : Tables) (c : Category) : Tables :=
  { t with categories := t.categories.insert c.id c }

def withLink (t : Tables) (l : Link) : Tables :=
  { t with links := t.links.insert (l.version, l.category) l }

/-- The tables without a version and its links. -/
def withoutVersion (t : Tables) (id : Uuid) : Tables :=
  { t with versions := t.versions.erase id, links := t.links.eraseWhere (·.1 = id) }

/-! ## Calls -/

/-- Adds the links that are not there yet and answers their number; the first bad link ends it. -/
def attach (t : Tables) : List Link → Except Error Nat × Tables
  | [] => (.ok 0, t)
  | l :: rest =>
    if !t.versions.contains l.version then (.error (.versionNotFound l.version), t)
    else if !t.categories.contains l.category then (.error (.categoryNotFound l.category), t)
    else if t.links.contains (l.version, l.category) then t.attach rest
    else (((t.withLink l).attach rest).1.map (· + 1), ((t.withLink l).attach rest).2)

/-- What a call answers, and what the tables are after it. -/
def call (t : Tables) : (c : Call) → Except Error c.Answer × Tables
  | .createPost p =>
    if t.posts.contains p.id then (.error (.internal ("duplicate post id " ++ p.id.toText)), t)
    else (.ok (), t.withPost p)
  | .updatePost p =>
    match t.posts.get? p.id with
    | none => (.error (.postNotFound p.id), t)
    | some stored => (.ok (), t.withPost { stored with current := p.current, updated := p.updated })
  | .lockPost id => (.ok (t.posts.get? id), t)
  | .createVersion v =>
    if !t.posts.contains v.post then
      (.error (.internal
        ("post version " ++ v.id.toText ++ " references missing post " ++ v.post.toText)), t)
    else if (t.versions.rows.any fun w => w.post = v.post ∧ w.number = v.number) ∨
        t.versions.contains v.id then
      (.error (.internal
        ("duplicate version " ++ String.ofList (Text.signedDecimal v.number) ++ " of post " ++
          v.post.toText)), t)
    else (.ok (), t.withVersion v)
  | .updateVersion v =>
    match t.versions.get? v.id with
    | none => (.error (.versionNotFound v.id), t)
    | some stored =>
      (.ok (), t.withVersion
        { stored with title := v.title, content := v.content, published := v.published })
  | .lockLatestVersion post => (.ok (latestVersion? t.versions.rows post), t)
  | .lockVersion id => (.ok (t.versions.get? id), t)
  | .deleteVersion id =>
    if t.versions.contains id then (.ok (), t.withoutVersion id)
    else (.error (.versionNotFound id), t)
  | .createCategory c =>
    if isNameTaken t.categories.rows c.name c.id then (.error (.nameTaken c.name), t)
    else (.ok (), t.withCategory c)
  | .updateCategory c =>
    if isNameTaken t.categories.rows c.name c.id then (.error (.nameTaken c.name), t)
    else match t.categories.get? c.id with
      | none => (.error (.categoryNotFound c.id), t)
      | some stored => (.ok (), t.withCategory { stored with name := c.name, updated := c.updated })
  | .lockCategory id => (.ok (t.categories.get? id), t)
  | .findCategoryByName name => (.ok (categoryNamed? t.categories.rows name), t)
  | .findCategories ids => (.ok (ids.filterMap t.categories.get?), t)
  | .attach links => t.attach links

end Tables

namespace Transaction

/-! ## Rows that are written and removed -/

@[simp] theorem undone_putPost (tx : Transaction) (p : Post) :
    (tx.putPost p).undone = tx.undone := by
  simp [undone, putPost, Tables.undo, Table.restore_insert]

@[simp] theorem undone_putVersion (tx : Transaction) (v : Version) :
    (tx.putVersion v).undone = tx.undone := by
  simp [undone, putVersion, Tables.undo, Table.restore_insert]

@[simp] theorem undone_putCategory (tx : Transaction) (c : Category) :
    (tx.putCategory c).undone = tx.undone := by
  simp [undone, putCategory, Tables.undo, Table.restore_insert]

@[simp] theorem undone_putLink (tx : Transaction) (l : Link) :
    (tx.putLink l).undone = tx.undone := by
  simp [undone, putLink, Tables.undo, Table.restore_insert]

@[simp] theorem undone_removeLink (tx : Transaction) (key : Uuid × Uuid) :
    (tx.removeLink key).undone = tx.undone := by
  simp [undone, removeLink, Tables.undo, Table.restore_erase]

theorem undone_foldl_removeLink (keys : List (Uuid × Uuid)) (tx : Transaction) :
    (keys.foldl removeLink tx).undone = tx.undone := by
  induction keys generalizing tx with
  | nil => rfl
  | cons key rest ih => rw [List.foldl_cons, ih, undone_removeLink]

theorem tables_foldl_removeLink (keys : List (Uuid × Uuid)) (tx : Transaction) :
    (keys.foldl removeLink tx).tables =
      { tx.tables with links := keys.foldl Table.erase tx.tables.links } := by
  induction keys generalizing tx with
  | nil => rfl
  | cons key rest ih =>
    rw [List.foldl_cons, ih]
    rfl

@[simp] theorem undone_removeVersion (tx : Transaction) (id : Uuid) :
    (tx.removeVersion id).undone = tx.undone := by
  unfold removeVersion
  rw [undone_foldl_removeLink]
  simp [undone, Tables.undo, Table.restore_erase]

@[simp] theorem tables_removeVersion (tx : Transaction) (id : Uuid) :
    (tx.removeVersion id).tables = tx.tables.withoutVersion id := by
  unfold removeVersion
  rw [tables_foldl_removeLink]
  simp only [Tables.withoutVersion]
  rw [← Table.foldl_erase_keys]

/-! ## Calls -/

/-- Attaching links in a transaction, after some were counted already. -/
theorem attach_eq (tx : Transaction) (count : Nat) (links : List Link) :
    (tx.attach count links).1 = (tx.tables.attach links).1.map (count + ·) ∧
      (tx.attach count links).2.tables = (tx.tables.attach links).2 ∧
      (tx.attach count links).2.undone = tx.undone := by
  induction links generalizing tx count with
  | nil => exact ⟨rfl, rfl, rfl⟩
  | cons l rest ih =>
    rw [attach, Tables.attach]
    split
    · exact ⟨rfl, rfl, rfl⟩
    · split
      · exact ⟨rfl, rfl, rfl⟩
      · split
        · exact ih tx count
        · obtain ⟨hanswer, htables, hundone⟩ := ih (tx.putLink l) (count + 1)
          refine ⟨?_, htables, hundone.trans (undone_putLink tx l)⟩
          rw [hanswer]
          change Except.map _ ((tx.tables.withLink l).attach rest).1 = _
          cases ((tx.tables.withLink l).attach rest).1 with
          | error e => rfl
          | ok n => simp only [Except.map, Nat.add_assoc, Nat.add_comm 1 n]

/-- A call in a transaction answers what it answers on the bare tables and makes of the tables what
it makes of those; whatever it writes, the record leads back to where it led before. -/
theorem perform_eq (tx : Transaction) (c : Call) :
    (tx.perform c).1 = (tx.tables.call c).1 ∧
      (tx.perform c).2.tables = (tx.tables.call c).2 ∧
      (tx.perform c).2.undone = tx.undone := by
  cases c with
  | createPost p =>
    simp only [perform, createPost, Tables.call]
    split
    · exact ⟨rfl, rfl, rfl⟩
    · exact ⟨rfl, rfl, undone_putPost tx p⟩
  | updatePost p =>
    simp only [perform, updatePost, Tables.call]
    cases tx.tables.posts.get? p.id with
    | none => exact ⟨rfl, rfl, rfl⟩
    | some stored => exact ⟨rfl, rfl, undone_putPost tx _⟩
  | createVersion v =>
    simp only [perform, createVersion, Tables.call]
    split
    · exact ⟨rfl, rfl, rfl⟩
    · split
      · exact ⟨rfl, rfl, rfl⟩
      · exact ⟨rfl, rfl, undone_putVersion tx v⟩
  | updateVersion v =>
    simp only [perform, updateVersion, Tables.call]
    cases tx.tables.versions.get? v.id with
    | none => exact ⟨rfl, rfl, rfl⟩
    | some stored => exact ⟨rfl, rfl, undone_putVersion tx _⟩
  | deleteVersion id =>
    simp only [perform, deleteVersion, Tables.call]
    split
    · exact ⟨rfl, tables_removeVersion tx id, undone_removeVersion tx id⟩
    · exact ⟨rfl, rfl, rfl⟩
  | createCategory c =>
    simp only [perform, createCategory, Tables.call]
    split
    · exact ⟨rfl, rfl, rfl⟩
    · exact ⟨rfl, rfl, undone_putCategory tx c⟩
  | updateCategory c =>
    simp only [perform, updateCategory, Tables.call]
    split
    · exact ⟨rfl, rfl, rfl⟩
    · cases tx.tables.categories.get? c.id with
      | none => exact ⟨rfl, rfl, rfl⟩
      | some stored => exact ⟨rfl, rfl, undone_putCategory tx _⟩
  | attach links =>
    obtain ⟨hanswer, htables, hundone⟩ := attach_eq tx 0 links
    refine ⟨?_, htables, hundone⟩
    simp only [perform, Tables.call, hanswer]
    cases (tx.tables.attach links).1 with
    | error e => rfl
    | ok n => simp only [Except.map, Nat.zero_add]
  | lockPost _ | lockLatestVersion _ | lockVersion _ | lockCategory _ | findCategoryByName _
  | findCategories _ => exact ⟨rfl, rfl, rfl⟩

end Transaction

end Weblog
