import Weblog.Service.Posts

/-!
# Operations on categories

Categories are made, renamed and shown, and versions are put into them. Every change is one
transaction, before which the clock is read.
-/

namespace Weblog.Categories

/-! ## Inside a transaction -/

/-- Makes a category under a name that none has. -/
def createIn (name : String) (now : Instant) : Task Category := do
  let other : Option Category ← Task.call (.findCategoryByName name)
  if other.isSome then throw (.nameTaken name)
  let category := Category.new (← Task.takeId) name now
  Task.call (.createCategory category)
  return category

/-- Gives a category another name, which no other category has. -/
def renameIn (id : Uuid) (name : String) (now : Instant) : Task Category := do
  let category : Category ← Task.require (.categoryNotFound id) (← Task.call (.lockCategory id))
  if category.name = name then throw (.invalidInput "name is the same as before")
  let other : Option Category ← Task.call (.findCategoryByName name)
  if other.any (·.id ≠ id) then throw (.nameTaken name)
  let renamed := category.rename name now
  Task.call (.updateCategory renamed)
  Task.report (.categoryRenamed id renamed.name)
  return renamed

/-- Puts a version into categories, all of which must be there, and answers into how many it was
not put before. -/
def attachIn (r : AttachCategories) (now : Instant) : Task Nat := do
  let version : Option Version ← Task.call (.lockVersion r.version)
  let _ ← Task.require (.versionNotFound r.version) version
  let found : List Category ← Task.call (.findCategories r.categories)
  let missing := r.categories.filter fun id => id ∉ found.map (·.id)
  if missing ≠ [] then throw (.categoriesNotFound missing)
  Task.call (.attach (r.categories.map fun id => ⟨r.version, id, now⟩))

/-! ## Operations -/

/-- The name that a request gives, cleaned. It must not be blank. -/
def cleanName (sanitizer : Sanitizer) (r : NameCategory) : Except Error String :=
  let name := sanitizer r.name
  (refuseBlank (blankFields [("name", name)])).map fun () => name

def create (sanitizer : Sanitizer) (r : NameCategory) : Task Category := do
  let name ← Task.ofExcept (cleanName sanitizer r)
  let now ← Task.readClock
  let category ← Task.transact (createIn name now)
  Task.report (.categoryCreated category.id)
  return category

def rename (sanitizer : Sanitizer) (id : Uuid) (r : NameCategory) : Task Category := do
  let name ← Task.ofExcept (cleanName sanitizer r)
  let now ← Task.readClock
  Task.transact (renameIn id name now)

def get (id : Uuid) : Task Category := do
  Task.require (.categoryNotFound id) (← Task.query (.category id))

/-- Puts a version into categories. -/
def attach (r : AttachCategories) : Task Unit := do
  Task.ofExcept r.validate
  let now ← Task.readClock
  let inserted ← Task.transact (attachIn r now)
  Task.report (.categoriesAttached r.version r.categories.length inserted)

end Weblog.Categories
