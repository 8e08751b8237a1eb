import Weblog.Error
import Weblog.Time.Text

/-!
# Requests and responses

A request has a method, a target, header fields and a body. The names of header fields are compared
in any case, and of several fields of one name the first counts. A response has a status, header
fields and a body, whose type follows from what it says.
-/

namespace Weblog.Http

open Text

/-! ## Header fields -/

/-- Header fields: names and values. -/
abbrev Fields := List (String × String)

namespace Fields

/-- Whether a field has a name, in any case. -/
def isNamed (name : String) (field : String × String) : Bool :=
  field.1.toLower = name.toLower

def get? (fields : Fields) (name : String) : Option String :=
  (fields.find? (isNamed name)).map (·.2)

def set (fields : Fields) (name value : String) : Fields :=
  fields.filter (fun field => !isNamed name field) ++ [(name, value)]

/-- A field that was set has its new value. -/
@[simp] theorem get?_set (fields : Fields) (name value : String) :
    (fields.set name value).get? name = some value := by
  have hnone : fields.find? (fun _ => false) = none := List.find?_eq_none.mpr (by simp)
  simp [get?, set, List.find?_append, isNamed, hnone]

/-- Adds a field unless there is one of its name. -/
def setDefault (fields : Fields) (field : String × String) : Fields :=
  if fields.any (isNamed field.1) then fields else fields ++ [field]

end Fields

/-- Whether a character is one that values of header fields are read with: a visible character of
ASCII, a space or a tab. -/
def isReadable (c : Char) : Bool :=
  c = '\t' || (0x20 ≤ c.toNat && c.toNat < 0x7F)

/-- Whether a character is one of those that names are made of. -/
def isToken (c : Char) : Bool :=
  c.isAlphanum || "!#$%&'*+-.^_|~".toList.contains c || c.toNat = 0x60

/-! ## Requests -/

/-- What a caller sends. -/
structure Request where
  method : String
  target : String
  headers : Fields
  body : String

/-- The value of a header field, if it can be read. -/
def Request.readable? (r : Request) (name : String) : Option String :=
  (r.headers.get? name).filter (·.toList.all isReadable)

/-! ## Responses -/

/-- What a response says. -/
inductive Body where
  | empty
  | text (s : String)
  | value (j : Json)
  | error (e : Error)
  /-- The service is up, at a time of the day. -/
  | health (time : Instant)

namespace Body

/-- What a body says as JSON, if it is JSON. -/
def json? : Body → Option Json
  | .empty | .text _ => none
  | .value j => some j
  | .error e => some e.toJson
  | .health time => some (.object [("status", .string "ok"), ("timestamp", .string time.toText)])

def toText : Body → String
  | .text s => s
  | body => (body.json?.map Json.toText).getD ""

/-- The type of a body, if it is declared. -/
def contentType? (body : Body) : Option String :=
  body.json?.map fun _ => "application/json"

end Body

/-- What a caller gets. -/
structure Response where
  status : Nat
  headers : Fields
  body : Body

namespace Response

/-- A response with a body, and with a header field that declares its type. -/
def of (status : Nat) (body : Body) : Response :=
  { status, body, headers := body.contentType?.toList.map ("content-type", ·) }

def notFound : Response :=
  of 404 .empty

def ofError (e : Error) : Response :=
  of e.status (.error e)

def health (time : Instant) : Response :=
  of 200 (.health time)

def setHeader (r : Response) (name value : String) : Response :=
  { r with headers := r.headers.set name value }

end Response

end Weblog.Http
