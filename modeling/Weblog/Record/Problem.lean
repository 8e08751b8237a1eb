import Weblog.Json.Basic
import Weblog.Text.Quoted

/-!
# Problems with a value of a given type

What can be wrong with a JSON value or text that should hold a value of some type, and what is said
about it. Of several problems the first one met counts.
-/

namespace Weblog.Record

open Text

/-- What was found where something else was expected. A container is known by its first token. -/
inductive Found where
  | null
  | bool (b : Bool)
  | integer (n : Int)
  | real (x : Binary64)
  | string (s : String)
  | sequence
  | map
  deriving DecidableEq

/-- What is wrong. -/
inductive Problem where
  /-- The text is not JSON. -/
  | malformed
  /-- A field is missing. -/
  | missing (field : String)
  /-- A field occurs twice. -/
  | duplicate (field : String)
  /-- A value has the wrong type. -/
  | mismatch (found : Found) (expected : String)
  /-- An integer is out of range. -/
  | outOfRange (n : Int) (expected : String)
  /-- A sequence has the wrong length. -/
  | wrongLength (length : Nat) (expected : String)
  /-- A name is none of those that are known. -/
  | unknownVariant (name : String) (known : String)
  /-- A text is no identifier. -/
  | notUuid
  /-- A text is no date and time. -/
  | notInstant
  deriving DecidableEq

/-- How a message names what was found. -/
def Found.describe : Found → String
  | .null => "null"
  | .bool b => "boolean `" ++ (if b then "true" else "false") ++ "`"
  | .integer n => "integer `" ++ String.ofList (signedDecimal n) ++ "`"
  | .real x => "floating point `" ++ String.ofList x.toChars ++ "`"
  | .string s => "string " ++ String.ofList (quoted s.toList)
  | .sequence => "sequence"
  | .map => "map"

def Problem.message : Problem → String
  | .malformed => "JSON syntax error"
  | .missing field => "missing field `" ++ field ++ "`"
  | .duplicate field => "duplicate field `" ++ field ++ "`"
  | .mismatch found expected => "invalid type: " ++ found.describe ++ ", expected " ++ expected
  | .outOfRange n expected =>
    "invalid value: " ++ (Found.integer n).describe ++ ", expected " ++ expected
  | .wrongLength n expected =>
    "invalid length " ++ String.ofList (decimal n) ++ ", expected " ++ expected
  | .unknownVariant name known => "unknown variant `" ++ name ++ "`, expected " ++ known
  | .notUuid => "UUID parsing failed"
  | .notInstant => "bad datetime"

end Weblog.Record
