import Weblog.Post.Detail
import Weblog.Record.Schema

/-!
# Stored rows as JSON

Posts, versions, categories and links are written as objects with their fields in a fixed order,
and are read back as records of the same fields.
-/

namespace Weblog

open Record (Problem Schema Field Values)

/-- Types whose values are read as records. -/
class Record (α : Type) where
  schema : Schema
  ofValues : Values schema.fields → α

namespace Record

variable {α : Type} [Record α]

def ofText (text : String) : Except Problem α :=
  ((schema α).ofText text).map ofValues

def ofJson (j : Json) : Except Problem α :=
  ((schema α).ofJson j).map ofValues

/-- Reads a list of values from JSON. -/
def listOfJson : Json → Except Problem (List α)
  | .array items => items.mapM ofJson
  | j => .error (mismatch j.toReading "a sequence")

end Record

/-! ## Fields -/

def Uuid.toJson (id : Uuid) : Json := .string id.toText

def Instant.toJson (t : Instant) : Json := .string t.toText

/-- A status, by its name. -/
def Status.toJson (s : Status) : Json := .string s.name

/-! ## Rows -/

def Post.toJson (p : Post) : Json :=
  .object [("id", p.id.toJson), ("current_version_id", .ofOption Uuid.toJson p.current),
    ("created_at", p.created.toJson), ("updated_at", p.updated.toJson)]

instance : Record Post where
  schema := ⟨"Post", [⟨"id", .one .uuid⟩, ⟨"current_version_id", .optional .uuid⟩,
    ⟨"created_at", .one .instant⟩, ⟨"updated_at", .one .instant⟩]⟩
  ofValues := fun (id, current, created, updated, ()) => { id, current, created, updated }

def Version.toJson (v : Version) : Json :=
  .object [("id", v.id.toJson), ("post_id", v.post.toJson), ("version_number", .integer v.number),
    ("title", .string v.title), ("content", .string v.content),
    ("published_at", .ofOption Instant.toJson v.published), ("created_at", v.created.toJson)]

instance : Record Version where
  schema := ⟨"PostVersion", [⟨"id", .one .uuid⟩, ⟨"post_id", .one .uuid⟩,
    ⟨"version_number", .one .integer⟩, ⟨"title", .one .text⟩, ⟨"content", .one .text⟩,
    ⟨"published_at", .optional .instant⟩, ⟨"created_at", .one .instant⟩]⟩
  ofValues := fun (id, post, number, title, content, published, created, ()) =>
    { id, post, number, title, content, published, created }

def Category.toJson (c : Category) : Json :=
  .object [("id", c.id.toJson), ("name", .string c.name), ("created_at", c.created.toJson),
    ("updated_at", c.updated.toJson)]

instance : Record Category where
  schema := ⟨"Category", [⟨"id", .one .uuid⟩, ⟨"name", .one .text⟩,
    ⟨"created_at", .one .instant⟩, ⟨"updated_at", .one .instant⟩]⟩
  ofValues := fun (id, name, created, updated, ()) => { id, name, created, updated }

def Link.toJson (l : Link) : Json :=
  .object [("post_version_id", l.version.toJson), ("category_id", l.category.toJson),
    ("created_at", l.created.toJson)]

instance : Record Link where
  schema := ⟨"PostVersionCategory", [⟨"post_version_id", .one .uuid⟩,
    ⟨"category_id", .one .uuid⟩, ⟨"created_at", .one .instant⟩]⟩
  ofValues := fun (version, category, created, ()) => { version, category, created }

/-! ## Joined rows -/

def CurrentPost.toJson (row : CurrentPost) : Json :=
  .object [("id", row.id.toJson), ("current_version_id", row.version.toJson),
    ("created_at", row.created.toJson), ("updated_at", row.updated.toJson),
    ("title", .string row.title), ("content", .string row.content),
    ("version_number", .integer row.number),
    ("published_at", .ofOption Instant.toJson row.published)]

def PostDetail.toJson (d : PostDetail) : Json :=
  .object [("post_id", d.post.toJson), ("current_version_id", d.version.toJson),
    ("title", .string d.title), ("content", .string d.content),
    ("version_number", .integer d.number), ("status", d.status.toJson),
    ("published_at", .ofOption Instant.toJson d.published),
    ("categories", .array (d.categories.map Category.toJson)),
    ("created_at", d.created.toJson), ("updated_at", d.updated.toJson)]

/-! ## Statuses -/

/-- The names of the statuses, as a message lists them. -/
def Status.known : String := "`draft` or `published`"

/-- The status of a name. -/
def Status.ofName (name : String) : Except Problem Status :=
  if name = Status.draft.name then .ok .draft
  else if name = Status.published.name then .ok .published
  else .error (.unknownVariant name Status.known)

/-- A status is read from its name, or from an object with the name as its only key and null as
its value. -/
def Status.ofDocument (d : Json.Document) : Except Problem Status :=
  let result := match d.root with
    | .string name => Status.ofName name
    | .object ((some name, value) :: more) =>
      match Status.ofName name, value with
      | .error problem, _ => .error problem
      | .ok status, .null => if more.isEmpty then .ok status else .error .malformed
      | .ok _, value => .error (Record.mismatch value "unit")
    | _ => .error .malformed
  match result with
  | .error problem => .error problem
  | .ok status => if d.ending = .complete then .ok status else .error .malformed

/-- What a token shows of itself, if it begins a value. -/
def Record.foundToken? : Json.Token → Option Record.Found
  | .null => some .null
  | .bool b => some (.bool b)
  | .number (some n) => Record.found? (.number n)
  | .string (some s) => some (.string s)
  | .openArray => some .sequence
  | .openObject => some .map
  | _ => none

/-- The problem with an object whose first key is a value of another type. -/
def Status.keyProblem? (cs : List Char) : Option Problem :=
  match Json.nextToken? cs with
  | some (.openObject, rest) =>
    match Json.nextToken? rest with
    | some (.string _, _) => none
    | some (t, _) => (Record.foundToken? t).map fun found => .mismatch found "variant identifier"
    | none => none
  | _ => none

/-- The status in a JSON text. -/
def Status.ofText (text : String) : Except Problem Status :=
  match Status.keyProblem? text.toList with
  | some problem => .error problem
  | none => Status.ofDocument (Json.Document.ofChars text.toList)

end Weblog
