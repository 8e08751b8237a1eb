import Weblog.Http.MediaType
import Weblog.Service.Operation
import Weblog.Text.Percent
import Weblog.Text.Unsigned

/-!
# Routes

The path of a request and its method lead to an endpoint of the service or to nothing. An endpoint
stands for an operation, whose identifier is part of the path and whose other arguments are the
body of the request. The identifier is read before the body is looked at.
-/

namespace Weblog.Http

open Text

/-! ## Paths -/

/-- The part of a target after the scheme and the authority, if it has them. -/
def afterAuthority (target : List Char) : List Char :=
  match target.span (· ≠ ':') with
  | (_ :: _, ':' :: '/' :: '/' :: rest) =>
    if target.head? = some '/' then target
    else rest.dropWhile fun c => c ≠ '/' && c ≠ '?' && c ≠ '#'
  | _ => target

/-- The characters that percent signs still stand for after the path is resolved, because they
have a meaning in paths. -/
def protectedInPaths : List Char := ['%', '/', '+']

/-- The path of a target, without a query and with percent signs resolved. -/
def pathOf (target : List Char) : List Char :=
  resolve protectedInPaths ((afterAuthority target).takeWhile fun c => c ≠ '?' && c ≠ '#')

/-- The segments of a path that begins with a slash. -/
def segments? (target : String) : Option (List String) :=
  match pathOf target.toList with
  | '/' :: path => some ((splitAtEach '/' path).map String.ofList)
  | _ => none

/-! ## Routes -/

/-- What the service does at an address. Identifiers are given as they stand in the path. -/
inductive Endpoint where
  | createPost
  | updatePost (id : String)
  | publishPost (id : String)
  | deleteDraft (id : String)
  | getPost (id : String)
  | getVersion (id : String)
  | createCategory
  | updateCategory (id : String)
  | getCategory (id : String)
  | attach
  deriving DecidableEq

/-- Where a request leads. -/
inductive Route where
  /-- To the news that the service is up. -/
  | health
  | service (e : Endpoint)
  deriving DecidableEq

/-- The endpoint for a segment of the path, which must not be empty. -/
def Route.withId (endpoint : String → Endpoint) (id : String) : Option Route :=
  if id = "" then none else some (.service (endpoint id))

/-- The route of a method and the segments of a path. -/
def Route.of? : String → List String → Option Route
  | "GET", ["api", "health"] => some .health
  | "POST", ["api", "posts"] => some (.service .createPost)
  | "GET", ["api", "posts", "versions", id] => Route.withId .getVersion id
  | "GET", ["api", "posts", id] => Route.withId .getPost id
  | "PUT", ["api", "posts", id] => Route.withId .updatePost id
  | "DELETE", ["api", "posts", id] => Route.withId .deleteDraft id
  | "POST", ["api", "posts", id, "publish"] => Route.withId .publishPost id
  | "POST", ["api", "categories"] => some (.service .createCategory)
  | "POST", ["api", "categories", "attach"] => some (.service .attach)
  | "GET", ["api", "categories", id] => Route.withId .getCategory id
  | "PUT", ["api", "categories", id] => Route.withId .updateCategory id
  | _, _ => none

/-- Where a request leads, if anywhere. -/
def Request.route? (r : Request) : Option Route :=
  (segments? r.target).bind (Route.of? r.method)

/-! ## Contents -/

/-- Why the body of a request is not accepted. -/
inductive ContentProblem where
  /-- It is not declared to be JSON. -/
  | contentType
  | tooLarge (size : Nat)
  | content (p : Record.Problem)
  deriving DecidableEq

/-- The greatest size of a body, in bytes. -/
def maxSize : Nat := 1 <<< 20

def ContentProblem.message : ContentProblem → String
  | .contentType => "Content type error"
  | .tooLarge size =>
    "JSON payload (" ++ String.ofList (decimal size) ++
      " bytes) is larger than allowed (limit: " ++ String.ofList (decimal maxSize) ++ " bytes)."
  | .content p => "Json deserialize error: " ++ p.message

/-- Whether the body of a request is declared to be JSON. -/
def Request.isJson (r : Request) : Bool :=
  ((r.readable? "content-type").bind fun value => MediaType.ofChars? value.toList).any (·.isJson)

/-- The record in the body of a request. -/
def Request.content {α : Type} [Record α] (r : Request) : Except ContentProblem α :=
  if !r.isJson then .error .contentType
  else if maxSize < r.body.utf8ByteSize then .error (.tooLarge r.body.utf8ByteSize)
  else (Record.ofText r.body).mapError .content

/-! ## Operations -/

/-- The record in the body of a request, for an operation. -/
def Request.argument {α : Type} [Record α] (r : Request) : Except Error α :=
  r.content.mapError fun p => .invalidInput p.message

/-- The identifier in a segment of a path. -/
def readId (segment : String) : Except Error Uuid :=
  match Uuid.ofText? (String.ofList (resolve [] segment.toList)) with
  | some id => .ok id
  | none => .error (.invalidInput ("invalid id: " ++ Record.Problem.notUuid.message))

/-- The operation that a request asks for at an endpoint. -/
def Endpoint.operation (r : Request) : Endpoint → Except Error Operation
  | createPost => do return .createPost (← r.argument)
  | updatePost id => do return .updatePost (← readId id) (← r.argument)
  | publishPost id => do return .publishPost (← readId id)
  | deleteDraft id => do return .deleteDraft (← readId id)
  | getPost id => do return .getPost (← readId id)
  | getVersion id => do return .getVersion (← readId id)
  | createCategory => do return .createCategory (← r.argument)
  | updateCategory id => do return .updateCategory (← readId id) (← r.argument)
  | getCategory id => do return .getCategory (← readId id)
  | attach => do return .attach (← r.argument)

end Weblog.Http
