import Weblog.Config
import Weblog.World

/-!
# The database and the start of the service

The service keeps its rows in memory or in a database. A database is reached by its address; the
start fails if there is none or nothing answers there. A database whose connections are closed
refuses every transaction and every query.
-/

namespace Weblog

namespace Database

/-- Why the service cannot work with its database. -/
inductive Problem where
  | noAddress
  | unreachable
  deriving DecidableEq

def Problem.message : Problem → String
  | .noAddress => "DATABASE_URL must be set for the postgres backend"
  | .unreachable => "failed to connect to PostgreSQL"

/-- Connects to the database that the configuration names, given which addresses answer. -/
def connect (answers : String → Bool) (c : Config) : Except Problem Unit :=
  match c.databaseUrl with
  | none => .error .noAddress
  | some url => if answers url then .ok () else .error .unreachable

/-- Gets the storage ready that the configuration asks for, and reports about it. -/
def prepare (answers : String → Bool) (c : Config) : Except Problem Storage × List Event :=
  match c.storage with
  | .memory => (.ok .memory, [.memoryChosen])
  | .database => ((connect answers c).map fun () => .database, [])

/-- What a database calls a query. -/
def operationName : Method → String
  | .currentPost => "find post with current version"
  | .version => "find post version"
  | .category => "find category"
  | .categoriesOf => "list categories of post version"
  | .createPost => "create post"
  | .updatePost => "update post"
  | .lockPost => "lock post"
  | .createVersion => "create post version"
  | .updateVersion => "update post version"
  | .lockLatestVersion => "find latest post version"
  | .lockVersion => "find post version for update"
  | .deleteVersion => "delete post version"
  | .createCategory | .updateCategory => "write category"
  | .lockCategory => "find category for update"
  | .findCategoryByName => "find category by name"
  | .findCategories => "find categories by ids"
  | .attach => "attach categories to post version"
  | .begin => "begin transaction"
  | .commit => "commit transaction"
  | .rollback => "rollback transaction"

/-- What a closed database says. -/
def closedText : String := "attempted to acquire a connection on a closed pool"

/-- The faults of a closed database. -/
def closed (m : Method) (_uses : Nat) : Option Fault :=
  let event : Event := match m with
    | .begin => .beginFailed closedText
    | _ => .databaseFailed (operationName m) closedText
  some (.fails (.internal ("database error: " ++ closedText)) [event])

end Database

end Weblog
