import Weblog.Config
import Weblog.Http.Handling
import Weblog.Http.Origin

/-!
# The server

The server puts the parts together: the check of origins comes first, then the header fields that
every response gets, then tracing, then the service. It starts only if its address can be bound.
-/

namespace Weblog.Http

/-- The header fields that keep browsers careful. -/
def securityFields : Fields :=
  [("x-content-type-options", "nosniff"), ("referrer-policy", "no-referrer"),
    ("permissions-policy", "geolocation=()"), ("cross-origin-opener-policy", "same-origin")]

/-- Adds the header fields that every response gets. -/
def Response.secured (r : Response) : Response :=
  { r with headers := securityFields.foldl Fields.setDefault r.headers }

/-- A server that was started. -/
structure Server where
  policy : OriginPolicy
  sanitizer : Sanitizer

/-- The server's address is not available. -/
structure AddressUnavailable where
  host : String
  port : Nat

namespace Server

/-- What pages of the configured origins may do. -/
def policyOf (c : Config) : OriginPolicy :=
  { origins := c.corsOrigins, methods := ["GET", "POST", "PUT", "DELETE"]
    headers := ["content-type"], maxAge := 3600 }

/-- Starts the server, given which addresses can be bound. -/
def start (binds : String → Nat → Bool) (c : Config) (sanitizer : Sanitizer) :
    Except AddressUnavailable Server :=
  if binds c.host c.port then .ok { policy := policyOf c, sanitizer }
  else .error { host := c.host, port := c.port }

def answer (s : Server) (o : Occasion) (r : Request) : Script Response :=
  s.policy.guard (fun r => Response.secured <$> traced o (handle s.sanitizer o.time) r) r

end Server

end Weblog.Http
