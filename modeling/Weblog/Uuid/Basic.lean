/-!
# Identifiers

An identifier is a number of 128 bits. Some of its bits say how it was made: `version` is 4 for
identifiers made of random bits and 7 for identifiers that begin with the time they were made at,
which are therefore ordered like their times.
-/

namespace Weblog

/-- An identifier of 128 bits. -/
structure Uuid where
  value : Nat
  value_lt : value < 1 <<< 128
  deriving DecidableEq

namespace Uuid

/-- The identifier with the last 128 bits of a number. -/
def ofNat (n : Nat) : Uuid :=
  ⟨n % 1 <<< 128, Nat.mod_lt _ (by decide)⟩

/-- Two identifiers with the same bits are the same identifier. -/
theorem ext {a b : Uuid} (h : a.value = b.value) : a = b := by
  cases a
  cases b
  simp_all

/-- Identifiers are ordered like their numbers. -/
instance : LT Uuid := ⟨fun a b => a.value < b.value⟩

instance (a b : Uuid) : Decidable (a < b) := inferInstanceAs (Decidable (a.value < b.value))

/-- The version that an identifier declares. -/
def version (id : Uuid) : Nat :=
  id.value >>> 76 % 16

/-- The variant that an identifier declares; it is 2 for the layout with a version. -/
def variant (id : Uuid) : Nat :=
  id.value >>> 62 % 4

/-- Puts a version and the usual variant into 128 bits: 48 bits, the version, 12 bits, the variant
and 62 bits. -/
def layout (version : Nat) (high middle low : Nat) : Uuid :=
  ofNat ((high % 1 <<< 48) <<< 80 + (version % 16) <<< 76 + (middle % 1 <<< 12) <<< 64 + 2 <<< 62
    + low % 1 <<< 62)

/-- The identifier of version 4 made of 122 random bits. -/
def ofRandom (bits : Nat) : Uuid :=
  layout 4 (bits >>> 74) (bits >>> 62) bits

/-- The identifier of version 7 for a time in milliseconds and the count of identifiers made so
far: a later time or, within one time, a greater count gives a greater identifier. -/
def ofTime (millis count : Nat) : Uuid :=
  layout 7 millis (count >>> 62) count

end Uuid

end Weblog
