import Weblog.Store.Call
import Weblog.Store.Tables

/-!
# The store

The store keeps its tables in memory. One transaction at a time may be open; it holds the store
for itself, writes straight into the tables and records for every row it writes what was there
before. A commit forgets the record. A transaction that ends in any other way replays the record,
the newest entry first, which makes the tables what they were when it began.
-/

namespace Weblog

/-- What a row was before it was written; nothing if it was absent. -/
inductive Undo where
  | post (id : Uuid) (before : Option Post)
  | version (id : Uuid) (before : Option Version)
  | category (id : Uuid) (before : Option Category)
  | link (key : Uuid × Uuid) (before : Option Link)

/-- Makes one row what it was. -/
def Tables.undo (t : Tables) : Undo → Tables
  | .post id before => { t with posts := t.posts.restore id before }
  | .version id before => { t with versions := t.versions.restore id before }
  | .category id before => { t with categories := t.categories.restore id before }
  | .link key before => { t with links := t.links.restore key before }

/-! ## Transactions -/

/-- An open transaction: the tables it writes and its record, newest entry first. -/
structure Transaction where
  tables : Tables
  record : List Undo

namespace Transaction

def putPost (tx : Transaction) (p : Post) : Transaction :=
  { tables := { tx.tables with posts := tx.tables.posts.insert p.id p }
    record := .post p.id (tx.tables.posts.get? p.id) :: tx.record }

def putVersion (tx : Transaction) (v : Version) : Transaction :=
  { tables := { tx.tables with versions := tx.tables.versions.insert v.id v }
    record := .version v.id (tx.tables.versions.get? v.id) :: tx.record }

def putCategory (tx : Transaction) (c : Category) : Transaction :=
  { tables := { tx.tables with categories := tx.tables.categories.insert c.id c }
    record := .category c.id (tx.tables.categories.get? c.id) :: tx.record }

def putLink (tx : Transaction) (l : Link) : Transaction :=
  let key := (l.version, l.category)
  { tables := { tx.tables with links := tx.tables.links.insert key l }
    record := .link key (tx.tables.links.get? key) :: tx.record }

def removeLink (tx : Transaction) (key : Uuid × Uuid) : Transaction :=
  { tables := { tx.tables with links := tx.tables.links.erase key }
    record := .link key (tx.tables.links.get? key) :: tx.record }

/-- Removes a version and every link of it. -/
def removeVersion (tx : Transaction) (id : Uuid) : Transaction :=
  let tx : Transaction :=
    { tables := { tx.tables with versions := tx.tables.versions.erase id }
      record := .version id (tx.tables.versions.get? id) :: tx.record }
  (tx.tables.links.keys.filter (·.1 = id)).foldl removeLink tx

/-- Makes the tables what they were when the transaction began. -/
def undone (tx : Transaction) : Tables :=
  tx.record.foldl Tables.undo tx.tables

/-! ## Calls -/

/-- Adds a post under an identifier that is new. -/
def createPost (tx : Transaction) (p : Post) : Except Error Unit × Transaction :=
  if tx.tables.posts.contains p.id then
    (.error (.internal ("duplicate post id " ++ p.id.toText)), tx)
  else (.ok (), tx.putPost p)

/-- Sets the version that a post points to and the time of its last change. -/
def updatePost (tx : Transaction) (p : Post) : Except Error Unit × Transaction :=
  match tx.tables.posts.get? p.id with
  | none => (.error (.postNotFound p.id), tx)
  | some stored => (.ok (), tx.putPost { stored with current := p.current, updated := p.updated })

/-- Adds a version of a post under an identifier and a number that are new. -/
def createVersion (tx : Transaction) (v : Version) : Except Error Unit × Transaction :=
  if !tx.tables.posts.contains v.post then
    (.error (.internal
      ("post version " ++ v.id.toText ++ " references missing post " ++ v.post.toText)), tx)
  else if (tx.tables.versions.rows.any fun w => w.post = v.post ∧ w.number = v.number) ∨
      tx.tables.versions.contains v.id then
    (.error (.internal
      ("duplicate version " ++ String.ofList (Text.signedDecimal v.number) ++ " of post " ++
        v.post.toText)), tx)
  else (.ok (), tx.putVersion v)

/-- Sets the title, the content and the time of publication of a version. -/
def updateVersion (tx : Transaction) (v : Version) : Except Error Unit × Transaction :=
  match tx.tables.versions.get? v.id with
  | none => (.error (.versionNotFound v.id), tx)
  | some stored =>
    (.ok (), tx.putVersion
      { stored with title := v.title, content := v.content, published := v.published })

/-- Deletes a version together with its links. -/
def deleteVersion (tx : Transaction) (id : Uuid) : Except Error Unit × Transaction :=
  if tx.tables.versions.contains id then (.ok (), tx.removeVersion id)
  else (.error (.versionNotFound id), tx)

/-- Writes a category whose name no other category has. -/
def createCategory (tx : Transaction) (c : Category) : Except Error Unit × Transaction :=
  if isNameTaken tx.tables.categories.rows c.name c.id then (.error (.nameTaken c.name), tx)
  else (.ok (), tx.putCategory c)

/-- Sets the name of a category, which no other category has, and the time of its last change. -/
def updateCategory (tx : Transaction) (c : Category) : Except Error Unit × Transaction :=
  if isNameTaken tx.tables.categories.rows c.name c.id then (.error (.nameTaken c.name), tx)
  else match tx.tables.categories.get? c.id with
    | none => (.error (.categoryNotFound c.id), tx)
    | some stored => (.ok (), tx.putCategory { stored with name := c.name, updated := c.updated })

/-- Adds the links that are not there yet, one by one, and answers their number. The first link
whose version or category is missing ends the call; the links before it stay. -/
def attach (tx : Transaction) (count : Nat) : List Link → Except Error Nat × Transaction
  | [] => (.ok count, tx)
  | l :: rest =>
    if !tx.tables.versions.contains l.version then (.error (.versionNotFound l.version), tx)
    else if !tx.tables.categories.contains l.category then
      (.error (.categoryNotFound l.category), tx)
    else if tx.tables.links.contains (l.version, l.category) then attach tx count rest
    else attach (tx.putLink l) (count + 1) rest

def perform (tx : Transaction) : (c : Call) → Except Error c.Answer × Transaction
  | .createPost p => tx.createPost p
  | .updatePost p => tx.updatePost p
  | .lockPost id => (.ok (tx.tables.posts.get? id), tx)
  | .createVersion v => tx.createVersion v
  | .updateVersion v => tx.updateVersion v
  | .lockLatestVersion post => (.ok (latestVersion? tx.tables.versions.rows post), tx)
  | .lockVersion id => (.ok (tx.tables.versions.get? id), tx)
  | .deleteVersion id => tx.deleteVersion id
  | .createCategory c => tx.createCategory c
  | .updateCategory c => tx.updateCategory c
  | .lockCategory id => (.ok (tx.tables.categories.get? id), tx)
  | .findCategoryByName name => (.ok (categoryNamed? tx.tables.categories.rows name), tx)
  | .findCategories ids => (.ok (ids.filterMap tx.tables.categories.get?), tx)
  | .attach links => tx.attach 0 links

end Transaction

def Tables.answer (t : Tables) : (q : Query) → q.Answer
  | .currentPost id => t.currentPost? id
  | .version id => t.versions.get? id
  | .category id => t.categories.get? id
  | .categoriesOf version => t.categoriesOf version

/-! ## The store and its lock -/

/-- The tables, and the record of the transaction that holds them, if one is open. -/
structure Store where
  tables : Tables
  record : Option (List Undo)

namespace Store

def empty : Store :=
  ⟨.empty, none⟩

/-- Why the store does not answer. -/
inductive Refusal where
  /-- A transaction is open; whoever asks has to wait for its end. -/
  | locked
  /-- No transaction is open. -/
  | noTransaction
  deriving DecidableEq

def isLocked (s : Store) : Bool :=
  s.record.isSome

def transaction? (s : Store) : Option Transaction :=
  s.record.map fun record => ⟨s.tables, record⟩

/-- Ends the open transaction, if there is one, and leaves no trace of it. -/
def abandon (s : Store) : Store :=
  match s.transaction? with
  | some tx => ⟨tx.undone, none⟩
  | none => s

/-- Looks at the tables between transactions. -/
def look {α : Type} (s : Store) (f : Tables → α) : Except Refusal α :=
  if s.isLocked then .error .locked else .ok (f s.tables)

/-- Asks something of the store: it answers, and says what it is from now on. -/
def perform (s : Store) : (a : Access) → Except Refusal (Except Error a.Answer × Store)
  | .begin => if s.isLocked then .error .locked else .ok (.ok (), { s with record := some [] })
  | .commit =>
    match s.transaction? with
    | some tx => .ok (.ok (), ⟨tx.tables, none⟩)
    | none => .error .noTransaction
  | .rollback =>
    match s.transaction? with
    | some _ => .ok (.ok (), s.abandon)
    | none => .error .noTransaction
  | .call c =>
    match s.transaction? with
    | some tx =>
      let (answer, tx) := tx.perform c
      .ok (answer, ⟨tx.tables, some tx.record⟩)
    | none => .error .noTransaction
  | .query q => (s.look fun t => t.answer q).map fun answer => (.ok answer, s)

end Store

end Weblog
