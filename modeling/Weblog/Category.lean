import Weblog.Error
import Weblog.Time.Text

/-!
# Categories and their links to versions

A category is a name for posts on one subject; no two categories have the same name. A link puts a
version of a post into a category.
-/

namespace Weblog

/-- A category. -/
structure Category where
  id : Uuid
  name : String
  created : Instant
  updated : Instant
  deriving DecidableEq

/-- The membership of a version in a category. -/
structure Link where
  version : Uuid
  category : Uuid
  created : Instant
  deriving DecidableEq

namespace Category

def new (id : Uuid) (name : String) (now : Instant) : Category :=
  { id, name, created := now, updated := now }

def rename (c : Category) (name : String) (now : Instant) : Category :=
  { c with name, updated := now }

end Category

end Weblog
