import Weblog.Json.Reading
import Weblog.Record.Problem
import Weblog.Time.Text
import Weblog.Uuid.Text

/-!
# Records

A record is a list of named fields, each of one of a few kinds. It is read from an object, whose
members may come in any order and among members of other names, or from an array that holds the
fields in their order. Values are checked in the order they come; after that the first missing
field counts, and an optional field that is missing is absent.
-/

namespace Weblog.Record

open Json

/-! ## Kinds of values -/

/-- The kinds of single values. -/
inductive Scalar where
  | text
  | uuid
  | instant
  /-- An integer of 64 bits with sign. -/
  | integer

/-- The values of a kind. -/
abbrev Scalar.Value : Scalar → Type
  | .text => String
  | .uuid => Uuid
  | .instant => Instant
  | .integer => Int

/-- How a message names what is expected. -/
def Scalar.expected : Scalar → String
  | .text => "a string"
  | .uuid => "a formatted UUID string"
  | .instant => "an RFC 3339 formatted date and time string"
  | .integer => "i64"

def minInteger : Int := -9223372036854775808

def maxInteger : Int := 9223372036854775807

/-- What a reading shows of itself, if there is anything to see. -/
def found? : Reading → Option Found
  | .null => some .null
  | .bool b => some (.bool b)
  | .number (.integer n) => some (.integer n)
  | .number (.real x) => some (.real x)
  | .string s => some (.string s)
  | .array _ => some .sequence
  | .object _ => some .map
  | .valueless => none
  | .cut => none

/-- The problem with a value that is not of the expected kind. -/
def mismatch (r : Reading) (expected : String) : Problem :=
  match found? r with
  | some found => .mismatch found expected
  | none => .malformed

def Scalar.read : (k : Scalar) → Reading → Except Problem k.Value
  | .text, .string s => .ok s
  | .uuid, .string s => match Uuid.ofText? s with
    | some id => .ok id
    | none => .error .notUuid
  | .instant, .string s => match Instant.ofText? s with
    | some t => .ok t
    | none => .error .notInstant
  | .integer, .number (.integer n) =>
    if minInteger ≤ n ∧ n ≤ maxInteger then .ok n
    else .error (.outOfRange n Scalar.integer.expected)
  | k, r => .error (mismatch r k.expected)

/-- The kinds of fields. -/
inductive Kind where
  | one (k : Scalar)
  | optional (k : Scalar)
  | many (k : Scalar)

abbrev Kind.Value : Kind → Type
  | .one k => k.Value
  | .optional k => Option k.Value
  | .many k => List k.Value

/-- Reads the value of a field. -/
def Kind.read : (k : Kind) → Reading → Except Problem k.Value
  | .one k, r => k.read r
  | .optional _, .null => .ok none
  | .optional k, r => (k.read r).map some
  | .many k, .array items => items.mapM k.read
  | .many _, r => .error (mismatch r "a sequence")

/-- The value of a field that is missing, if it may be. -/
def Kind.absent? : (k : Kind) → Option k.Value
  | .one _ => none
  | .optional _ => some none
  | .many _ => none

/-! ## Fields -/

/-- A named field. -/
structure Field where
  name : String
  kind : Kind

/-- The values of a list of fields. -/
abbrev Values : List Field → Type
  | [] => Unit
  | f :: fs => f.kind.Value × Values fs

/-- The values found so far for a list of fields. -/
abbrev Slots : List Field → Type
  | [] => Unit
  | f :: fs => Option f.kind.Value × Slots fs

def Slots.empty : (fs : List Field) → Slots fs
  | [] => ()
  | _ :: fs => (none, Slots.empty fs)

/-- Reads the value of a member into the field of its name, which must not have one yet. Members of
other names are passed over. -/
def Slots.fill : (fs : List Field) → Slots fs → String → Reading → Except Problem (Slots fs)
  | [], slots, _, _ => .ok slots
  | f :: fs, (value, slots), name, r =>
    if f.name = name then
      match value with
      | some _ => .error (.duplicate name)
      | none => (f.kind.read r).map fun value => (some value, slots)
    else (Slots.fill fs slots name r).map fun slots => (value, slots)

/-- The values of all fields, if none of them is missing. -/
def Slots.close : (fs : List Field) → Slots fs → Except Problem (Values fs)
  | [], _ => .ok ()
  | f :: fs, (value, slots) =>
    match value.or f.kind.absent? with
    | some value => (Slots.close fs slots).map fun values => (value, values)
    | none => .error (.missing f.name)

/-! ## Records -/

/-- A type of records: its name and its fields. -/
structure Schema where
  name : String
  fields : List Field

namespace Schema

/-- How a message names a record of this type. -/
def expected (s : Schema) : String :=
  "struct " ++ s.name

/-- How a message names the sequences that hold a record of this type. -/
def expectedLength (s : Schema) : String :=
  s.expected ++ " with " ++ String.ofList (Text.decimal s.fields.length) ++
    (if s.fields.length = 1 then " element" else " elements")

/-- Reads the members of an object in their order. -/
def readMembers (fs : List Field) :
    Slots fs → List (Option String × Reading) → Except Problem (Slots fs)
  | slots, [] => .ok slots
  | slots, (some name, r) :: rest =>
    match Slots.fill fs slots name r with
    | .ok slots => readMembers fs slots rest
    | .error problem => .error problem
  | _, (none, _) :: _ => .error .malformed

/-- Reads the fields from the items of an array and says which items are left. The problem that an
array is too short for is given. -/
def readItems (short : Problem) :
    (fs : List Field) → List Reading → Except Problem (Values fs × List Reading)
  | [], items => .ok ((), items)
  | _ :: _, [] => .error short
  | f :: fs, r :: items =>
    match f.kind.read r with
    | .error problem => .error problem
    | .ok value => (readItems short fs items).map fun (values, left) => ((value, values), left)

/-- Reads a record from an object or an array. A text that breaks off inside is malformed unless
something before is wrong already, and an array must not be too long. -/
def ofReading (s : Schema) (broken : Bool) (tooLong : Nat → Problem) :
    Reading → Except Problem (Values s.fields)
  | .object members =>
    match readMembers s.fields (Slots.empty s.fields) members with
    | .error problem => .error problem
    | .ok slots => if broken then .error .malformed else Slots.close s.fields slots
  | .array items =>
    let short : Problem :=
      if broken then .malformed else .wrongLength items.length s.expectedLength
    match readItems short s.fields items with
    | .error problem => .error problem
    | .ok (values, left) =>
      if broken then .error .malformed
      else if left.isEmpty then .ok values
      else .error (tooLong items.length)
  | r => .error (mismatch r s.expected)

/-- The values of a record in JSON text, in which an array that is too long is malformed, as is
text after the record. -/
def ofDocument (s : Schema) (d : Document) : Except Problem (Values s.fields) :=
  match s.ofReading (d.ending = .broken) (fun _ => .malformed) d.root with
  | .error problem => .error problem
  | .ok values => if d.ending = .trailing then .error .malformed else .ok values

/-- The values of a record in a JSON text. -/
def ofText (s : Schema) (text : String) : Except Problem (Values s.fields) :=
  s.ofDocument (Document.ofChars text.toList)

/-- The values of a record in a JSON value, in which an array that is too long has the wrong
length. -/
def ofJson (s : Schema) (j : Json) : Except Problem (Values s.fields) :=
  s.ofReading false (fun n => .wrongLength n "fewer elements in array") j.toReading

end Schema

end Weblog.Record
