import Weblog.Post.Detail
import Weblog.Table

/-!
# The tables of the store

Posts, versions and categories under their identifiers, and links under the pair of a version and
a category. The questions asked of many rows at once are functions of a list of rows, whatever the
order of the list.
-/

namespace Weblog

/-- The tables of the store. -/
structure Tables where
  posts : Table Uuid Post
  versions : Table Uuid Version
  categories : Table Uuid Category
  links : Table (Uuid × Uuid) Link

/-- The version with the greatest number among the versions of a post. Of versions with one number
the last one counts. -/
def latestVersion? (versions : List Version) (post : Uuid) : Option Version :=
  (versions.filter (·.post = post)).foldl
    (fun best v => match best with
      | none => some v
      | some b => if b.number ≤ v.number then some v else some b)
    none

/-- The versions of a post, by ascending number. -/
def versionsOfPost (versions : List Version) (post : Uuid) : List Version :=
  (versions.filter (·.post = post)).mergeSort fun a b => a.number ≤ b.number

/-- The first category with a name. -/
def categoryNamed? (categories : List Category) (name : String) : Option Category :=
  categories.find? (·.name = name)

/-- Whether another category than the one excepted has a name. -/
def isNameTaken (categories : List Category) (name : String) (except : Uuid) : Bool :=
  categories.any fun c => c.name = name ∧ c.id ≠ except

/-- Categories by ascending name. -/
def sortByName (categories : List Category) : List Category :=
  categories.mergeSort fun a b => a.name ≤ b.name

namespace Tables

def empty : Tables :=
  ⟨.empty, .empty, .empty, .empty⟩

/-- The links of a version, by category. -/
def linksOf (t : Tables) (version : Uuid) : List Link :=
  t.links.rows.filter (·.version = version)

/-- The categories that a version is in, by name. -/
def categoriesOf (t : Tables) (version : Uuid) : List Category :=
  sortByName ((t.linksOf version).filterMap fun l => t.categories.get? l.category)

/-- A post with the version that it points to, if that is one of its own. -/
def currentPost? (t : Tables) (id : Uuid) : Option CurrentPost := do
  let post ← t.posts.get? id
  let current ← post.current
  let version ← t.versions.get? current
  if version.post = post.id then some (.of post version) else none

/-! ## Excerpts -/

/-- Rows of all four tables. -/
structure Excerpt where
  posts : List Post
  versions : List Version
  links : List Link
  categories : List Category

/-- Adds an identifier to identifiers in ascending order, if it is not among them. -/
def addId (id : Uuid) : List Uuid → List Uuid
  | [] => [id]
  | i :: rest =>
    if id < i then id :: i :: rest
    else if id = i then i :: rest
    else i :: addId id rest

/-- The rows that belong to any of some identifiers, taken in ascending order: the post and the
category of that identifier, the versions of the post and the links of the version. -/
def excerpt (t : Tables) (ids : List Uuid) : Excerpt :=
  let ids := ids.foldl (fun sorted id => addId id sorted) []
  { posts := ids.filterMap t.posts.get?
    versions := ids.flatMap (versionsOfPost t.versions.rows)
    links := ids.flatMap t.linksOf
    categories := ids.filterMap t.categories.get? }

end Tables

end Weblog
