import Weblog.Http.Message
import Weblog.Script
import Weblog.Text.Blank
import Weblog.Text.Unsigned

/-!
# Requests from other origins

A browser says from which origin a page sends a request. Requests of origins that are not listed
are refused. Before some requests a browser asks whether it may send them: that question, the
preflight, is answered here and goes no further. Every other request goes on, and the response
tells the browser that its origin is allowed.
-/

namespace Weblog.Http

open Text

/-- What pages of other origins may do: the origins, the methods and the header fields that are
allowed, and for how many seconds a browser may remember it. -/
structure OriginPolicy where
  origins : List String
  methods : List String
  headers : List String
  maxAge : Nat

/-- Why a request of another origin is refused. -/
inductive OriginProblem where
  | missingOrigin
  | originNotAllowed
  | methodNotAllowed
  | badHeaders
  | headersNotAllowed
  deriving DecidableEq

def OriginProblem.message : OriginProblem → String
  | .missingOrigin => "Request header `Origin` is required but was not provided"
  | .originNotAllowed => "Origin is not allowed to make this request"
  | .methodNotAllowed => "Requested method is not allowed"
  | .badHeaders => "Request header `Access-Control-Request-Headers` has an invalid value"
  | .headersNotAllowed => "One or more request headers are not allowed"

def OriginProblem.response (p : OriginProblem) : Response :=
  .of 400 (.text p.message)

/-- The fields of a request that the answer about its origin depends on. -/
def varying : String :=
  "Origin, Access-Control-Request-Method, Access-Control-Request-Headers"

/-- Declares on what the answer about an origin depends. -/
def Response.withVary (r : Response) : Response :=
  r.setHeader "vary" varying

/-- Whether a text is a name of a method or a header field. -/
def isName (cs : List Char) : Bool :=
  !cs.isEmpty && cs.all isToken

/-- The method that a preflight asks for; a request that asks for none is no preflight. -/
def Request.preflightMethod? (r : Request) : Option String :=
  if r.method = "OPTIONS" then
    (r.headers.get? "access-control-request-method").filter fun method => isName method.toList
  else none

namespace OriginPolicy

def checkOrigin (p : OriginPolicy) (r : Request) : Except OriginProblem String :=
  match r.headers.get? "origin" with
  | none => .error .missingOrigin
  | some origin => if origin ∈ p.origins then .ok origin else .error .originNotAllowed

/-- Checks the header fields that a preflight asks for. -/
def checkHeaders (p : OriginPolicy) (r : Request) : Except OriginProblem Unit :=
  match r.headers.get? "access-control-request-headers" with
  | none => .ok ()
  | some value =>
    let names := (splitAtEach ',' value.toList).map trim
    if !value.toList.all isReadable || !names.all isName then .error .badHeaders
    else if names.all fun name =>
        p.headers.any fun header => header.toLower = (String.ofList name).toLower then
      .ok ()
    else .error .headersNotAllowed

/-- Checks a preflight and says which origin is allowed. -/
def checkPreflight (p : OriginPolicy) (method : String) (r : Request) :
    Except OriginProblem String := do
  let origin ← p.checkOrigin r
  if method ∉ p.methods then throw .methodNotAllowed
  p.checkHeaders r
  return origin

/-- The response to a preflight that is allowed. -/
def allowance (p : OriginPolicy) (origin : String) : Response :=
  Response.withVary { Response.of 200 .empty with
    headers := [("access-control-allow-origin", origin),
      ("access-control-allow-methods", String.intercalate ", " p.methods),
      ("access-control-allow-headers", String.intercalate ", " p.headers),
      ("access-control-max-age", String.ofList (decimal p.maxAge))] }

def preflight (p : OriginPolicy) (method : String) (r : Request) : Response :=
  match p.checkPreflight method r with
  | .ok origin => p.allowance origin
  | .error problem => problem.response

/-- Answers preflights, refuses requests of origins that are not allowed, and passes all others
on. -/
def guard (p : OriginPolicy) (handler : Request → Script Response) (r : Request) :
    Script Response :=
  match r.preflightMethod? with
  | some method => pure (p.preflight method r)
  | none =>
    match p.checkOrigin r with
    | .error .missingOrigin => Response.withVary <$> handler r
    | .error problem => pure problem.response.withVary
    | .ok origin =>
      (fun response =>
        (response.setHeader "access-control-allow-origin" origin).withVary) <$> handler r

end OriginPolicy

end Weblog.Http
