import Weblog.Sanitizer
import Weblog.World

/-!
# Clocks and sources of identifiers

A clock and a source of identifiers answer each reading in turn. Here they are given by a list of
answers and a rule for all readings after it, and the sources in use by default are put together.
-/

namespace Weblog

/-- A clock that shows the given instants and from then on ticks evenly. A tick that is no instant
shows the start of 1970. -/
def Instant.ticking (given : List Instant) (start step : Int) (reading : Nat) : Instant :=
  given.getD reading
    ((ofUnix? (start + step * (reading - given.length : Nat)) 0).getD .epoch)

/-- A source that gives the given identifiers and from then on counts from one. -/
def Uuid.counting (given : List Uuid) (taken : Nat) : Uuid :=
  given.getD taken (ofNat (taken - given.length + 1))

/-- What the service works with besides its store. -/
structure Collaborators where
  ids : Nat → Uuid
  clock : Nat → Instant
  sanitizer : Sanitizer

/-- Identifiers in the order of their making, the time as the system tells it, and the sanitizer
for web pages. -/
def Collaborators.default (millis : Nat → Nat) (clock : Nat → Instant) : Collaborators :=
  { ids := fun taken => Uuid.ofTime (millis taken) taken, clock, sanitizer := Sanitizer.html }

/-- Whether each member of a list is less than the next. -/
def strictlyIncreasing {α : Type} (less : α → α → Bool) : List α → Bool
  | a :: b :: rest => less a b && strictlyIncreasing less (b :: rest)
  | _ => true

end Weblog
