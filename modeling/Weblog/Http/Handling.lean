import Weblog.Http.Route

/-!
# The handling of requests

A request that leads to an endpoint is answered by one operation of the service; all other requests
are answered without it. Tracing gives every request a name, which its events and its response
carry, and reports when the request is completed.
-/

namespace Weblog

namespace Operation

/-- The status of a response that says that an operation was done. -/
def successStatus : Operation → Nat
  | createPost _ | createCategory _ => 201
  | _ => 200

/-- What was achieved by an operation, if it is worth an event. -/
def achievement? : Operation → Reply → Option Handled
  | createPost _, .post reply => some (.postCreated reply.post)
  | updatePost id _, .post reply => some (.postUpdated id reply.number)
  | publishPost id, _ => some (.postPublished id)
  | deleteDraft id, _ => some (.draftDeleted id)
  | createCategory _, .category c => some (.categoryCreated c.id)
  | updateCategory .., .category c => some (.categoryUpdated c.id)
  | attach r, _ => some (.categoriesAttached r.version)
  | _, _ => none

/-- What is said when an operation was done. -/
def answer : Operation → Reply → Json
  | deleteDraft _, .done => .object [("message", .string "post version deleted")]
  | attach _, .done =>
    .object [("message", .string "category attached to post version successfully")]
  | _, reply => reply.toJson

/-- Does an operation for a request of the given name, and reports what was achieved. -/
def handle (sanitizer : Sanitizer) (name : RequestId) (op : Operation) : Task Reply := do
  let reply ← op.task sanitizer
  match op.achievement? reply with
  | some what => Task.report (.handled name what)
  | none => pure ()
  return reply

end Operation

namespace Http

/-- Something that answers requests, given their names. -/
abbrev Handler := RequestId → Request → Script Response

/-- The response to the outcome of an operation. -/
def Response.ofResult (op : Operation) : Except Error Reply → Response
  | .ok reply => .of op.successStatus (.value (op.answer reply))
  | .error e => .ofError e

/-- Answers a request by what its route leads to. The time of the day is for those who ask whether
the service is up. -/
def handle (sanitizer : Sanitizer) (time : Instant) : Handler := fun name r =>
  match r.route? with
  | none => pure .notFound
  | some .health => pure (.health time)
  | some (.service endpoint) =>
    match endpoint.operation r with
    | .error e => pure (.ofError e)
    | .ok op => Response.ofResult op <$> (op.handle sanitizer name).run

/-! ## Tracing -/

/-- What is given to a request: the time of the day, an identifier made of random bits, and how
many milliseconds it takes. -/
structure Occasion where
  time : Instant
  random : Uuid
  millis : Nat

/-- The name of a request: the one that its caller gave it, if that can be read, or else the
identifier. -/
def Request.name (r : Request) (random : Uuid) : RequestId :=
  match r.readable? "x-request-id" with
  | some text => .given text
  | none => .generated random

/-- Tags a response with the name of its request and the time it took. -/
def Response.tagged (response : Response) (name : RequestId) (millis : Nat) : Response :=
  (response.setHeader "x-request-id" name.text).setHeader "server-timing"
    ("app;dur=" ++ String.ofList (Text.decimal millis))

/-- Names a request, reports its completion and tags its response. -/
def traced (o : Occasion) (handler : Handler) (r : Request) : Script Response := do
  let name := r.name o.random
  let response ← handler name r
  Script.report (.requestCompleted response.status o.millis) (.done ())
  return response.tagged name o.millis

/-- Answers a request without tracing. -/
def untraced (handler : Handler) (r : Request) : Script Response :=
  handler .unknown r

end Http

end Weblog
