import Weblog.Time.Calendar

/-!
# Instants

A point in time, in Coordinated Universal Time: seconds since 1970, not counting leap seconds, and
nanoseconds within the second. A leap second has no number of its own: it is a second longer than
usual, the last one of its minute, whose nanoseconds go on beyond 999999999.
-/

namespace Weblog

open Time

namespace Instant

/-- The first second of the year -262143. -/
def firstSecond : Int := -8334601228800

/-- The last second of the year 262142. -/
def lastSecond : Int := 8210266876799

/-- Whether a count of seconds and nanoseconds is an instant: it lies in the years that can be
told, and only the last second of a minute can be a leap second. -/
def Valid (seconds : Int) (nanos : Nat) : Prop :=
  firstSecond ≤ seconds ∧ seconds ≤ lastSecond ∧
    (nanos < 1000000000 ∨ nanos < 2000000000 ∧ seconds % 60 = 59)

instance (seconds : Int) (nanos : Nat) : Decidable (Valid seconds nanos) := by
  unfold Valid
  infer_instance

end Instant

/-- A point in time. -/
structure Instant where
  seconds : Int
  nanos : Nat
  valid : Instant.Valid seconds nanos
  deriving DecidableEq

namespace Instant

/-- The instant with these seconds and nanoseconds, if there is one. -/
def ofUnix? (seconds : Int) (nanos : Nat) : Option Instant :=
  if h : Valid seconds nanos then some ⟨seconds, nanos, h⟩ else none

/-- The start of 1970. -/
def epoch : Instant :=
  ⟨0, 0, by decide⟩

/-- Earlier and later: by seconds, then by nanoseconds, so that a leap second is later than the
second it prolongs. -/
instance : LE Instant :=
  ⟨fun a b => a.seconds < b.seconds ∨ a.seconds = b.seconds ∧ a.nanos ≤ b.nanos⟩

instance (a b : Instant) : Decidable (a ≤ b) :=
  inferInstanceAs (Decidable (a.seconds < b.seconds ∨ a.seconds = b.seconds ∧ a.nanos ≤ b.nanos))

end Instant

end Weblog
