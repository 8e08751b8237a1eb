import Weblog.Json.Text
import Weblog.Uuid.Text

/-!
# Errors

Why a request is refused or fails. Every error but an internal one is told to the caller in full;
of an internal error the caller learns only that there was one, and its text is for the logs.
-/

namespace Weblog

/-- Why a request is refused or fails. -/
inductive Error where
  | postNotFound (id : Uuid)
  | versionNotFound (id : Uuid)
  /-- The post is there, but it has no version. -/
  | noVersions (post : Uuid)
  | categoryNotFound (id : Uuid)
  | categoriesNotFound (ids : List Uuid)
  /-- The version is published and cannot be published again. -/
  | alreadyPublished (version : Uuid)
  /-- The version is published and cannot be deleted. -/
  | notDeletable (version : Uuid)
  | nameTaken (name : String)
  | invalidInput (text : String)
  | internal (text : String)
  deriving DecidableEq

/-- What callers tell apart. -/
inductive ErrorKind where
  | notFound
  | conflict
  | invalidInput
  | internal
  deriving DecidableEq

def ErrorKind.name : ErrorKind → String
  | .notFound => "not_found"
  | .conflict => "conflict"
  | .invalidInput => "invalid_input"
  | .internal => "internal"

/-- The status code of an answer that reports an error of this kind. -/
def ErrorKind.status : ErrorKind → Nat
  | .notFound => 404
  | .conflict => 409
  | .invalidInput => 400
  | .internal => 500

namespace Error

def kind : Error → ErrorKind
  | .postNotFound _ | .versionNotFound _ | .noVersions _ | .categoryNotFound _
  | .categoriesNotFound _ => .notFound
  | .alreadyPublished _ | .notDeletable _ | .nameTaken _ => .conflict
  | .invalidInput _ => .invalidInput
  | .internal _ => .internal

/-- Identifiers with commas between them. -/
def listIds (ids : List Uuid) : String :=
  String.intercalate ", " (ids.map Uuid.toText)

def message : Error → String
  | .postNotFound id => "post not found: " ++ id.toText
  | .versionNotFound id => "post version not found: " ++ id.toText
  | .noVersions post => "post " ++ post.toText ++ " has no versions"
  | .categoryNotFound id => "category not found: " ++ id.toText
  | .categoriesNotFound ids => "categories not found: " ++ listIds ids
  | .alreadyPublished version => "post version " ++ version.toText ++ " is already published"
  | .notDeletable version =>
    "post version " ++ version.toText ++ " is published and cannot be deleted"
  | .nameTaken name => "category name already exists: " ++ name
  | .invalidInput text => "invalid input: " ++ text
  | .internal text => "internal error: " ++ text

/-- What the caller may know of it. -/
def publicMessage (e : Error) : String :=
  match e.kind with
  | .internal => "internal server error"
  | _ => e.message

def status (e : Error) : Nat :=
  e.kind.status

/-- What the error is about, in a form for programs. -/
def details? : Error → Option Json
  | .postNotFound id | .versionNotFound id | .noVersions id | .categoryNotFound id =>
    some (.object [("resource", .string id.toText)])
  | .categoriesNotFound ids =>
    some (.object [("resources", .array (ids.map fun id => .string id.toText))])
  | .nameTaken name => some (.object [("name", .string name)])
  | .alreadyPublished _ | .notDeletable _ | .invalidInput _ | .internal _ => none

/-- The body of an answer that reports the error. -/
def toJson (e : Error) : Json :=
  .object ([("error", .string e.publicMessage), ("kind", .string e.kind.name)] ++
    match e.details? with
    | some details => [("details", details)]
    | none => [])

end Error

end Weblog
