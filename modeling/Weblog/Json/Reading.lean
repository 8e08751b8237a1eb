import Weblog.Json.Token

/-!
# Reading JSON text

A text is read token by token into a value, as far as the text is sound. Text that breaks off or
goes wrong still gives the value read up to there, so that whoever wants a value of some type can
say whether the first thing wrong is the text or a value of the wrong type before it. The open
containers are a list of frames, so that no depth of nesting is too great.
-/

namespace Weblog.Json

/-- A value as it was read: a JSON value whose tokens may have no value, and which may be cut off. -/
inductive Reading where
  | null
  | bool (b : Bool)
  | number (n : Number)
  | string (s : String)
  | array (items : List Reading)
  | object (members : List (Option String × Reading))
  /-- A well-formed token without a value. -/
  | valueless
  /-- Nothing: the text went wrong where a value was due. -/
  | cut

/-- How the reading of a text came to its end. -/
inductive Ending where
  /-- The text is one value. -/
  | complete
  /-- More text follows the value. -/
  | trailing
  /-- The text breaks off or goes wrong inside the value. -/
  | broken
  deriving DecidableEq

/-- A text as it was read. -/
structure Document where
  root : Reading
  ending : Ending

/-- A container that is open around the value being read; its contents come newest first. -/
inductive Frame where
  | array (items : List Reading)
  | object (members : List (Option String × Reading)) (key : Option String)

/-- What may come next, inside the innermost container. -/
inductive Expectation where
  | value
  | firstItem
  | afterItem (items : List Reading)
  | firstKey
  | nextKey (members : List (Option String × Reading))
  | colon (members : List (Option String × Reading)) (key : Option String)
  | afterMember (members : List (Option String × Reading))

/-- How far the reading has come. -/
inductive Progress where
  | within (next : Expectation) (outer : List Frame)
  | ended (document : Document)

namespace Progress

/-- A value is complete: it goes into the innermost open container. -/
def deliver (v : Reading) : List Frame → Progress
  | [] => .ended ⟨v, .complete⟩
  | .array items :: outer => .within (.afterItem (v :: items)) outer
  | .object members key :: outer => .within (.afterMember ((key, v) :: members)) outer

/-- What was read of the innermost container when the text goes wrong. -/
def remains : Expectation → Reading
  | .value => .cut
  | .firstItem => .array []
  | .afterItem items => .array items.reverse
  | .firstKey => .object []
  | .nextKey members => .object members.reverse
  | .colon members key => .object ((key, .cut) :: members).reverse
  | .afterMember members => .object members.reverse

/-- Closes an open container around what was read last. -/
def enclose (v : Reading) : Frame → Reading
  | .array items => .array (v :: items).reverse
  | .object members key => .object ((key, v) :: members).reverse

/-- The text goes wrong: every open container ends where it stands. -/
def breakOff (next : Expectation) (outer : List Frame) : Document :=
  ⟨outer.foldl enclose (remains next), .broken⟩

/-- A token where a value is due. -/
def stepValue (outer : List Frame) : Token → Progress
  | .null => deliver .null outer
  | .bool b => deliver (.bool b) outer
  | .number (some n) => deliver (.number n) outer
  | .number none => deliver .valueless outer
  | .string (some s) => deliver (.string s) outer
  | .string none => deliver .valueless outer
  | .openArray => .within .firstItem outer
  | .openObject => .within .firstKey outer
  | _ => .ended (breakOff .value outer)

/-- Reads one token. -/
def step : Progress → Token → Progress
  | .within .value outer, t => stepValue outer t
  | .within .firstItem outer, .closeArray => deliver (.array []) outer
  | .within .firstItem outer, t => stepValue (.array [] :: outer) t
  | .within (.afterItem items) outer, .comma => .within .value (.array items :: outer)
  | .within (.afterItem items) outer, .closeArray => deliver (.array items.reverse) outer
  | .within .firstKey outer, .closeObject => deliver (.object []) outer
  | .within .firstKey outer, .string key => .within (.colon [] key) outer
  | .within (.nextKey members) outer, .string key => .within (.colon members key) outer
  | .within (.colon members key) outer, .colon => .within .value (.object members key :: outer)
  | .within (.afterMember members) outer, .comma => .within (.nextKey members) outer
  | .within (.afterMember members) outer, .closeObject => deliver (.object members.reverse) outer
  | .within next outer, _ => .ended (breakOff next outer)
  | .ended document, _ =>
    .ended (if document.ending = .complete then { document with ending := .trailing } else document)

/-- Reads a text to its end. -/
def run (progress : Progress) (cs : List Char) : Progress :=
  match _h : nextToken? cs with
  | none => progress
  | some (t, rest) => run (progress.step t) rest
termination_by cs.length
decreasing_by exact length_nextToken? _h

/-- The end of the text. -/
def finish : Progress → Document
  | .within next outer => breakOff next outer
  | .ended document => document

end Progress

/-- The value that a text holds, as far as it is sound. -/
def Document.ofChars (cs : List Char) : Document :=
  (Progress.run (.within .value []) cs).finish

/-! ## Values and readings -/

mutual

/-- A value as the reading of its text gives it. -/
def toReading : Json → Reading
  | .null => .null
  | .bool b => .bool b
  | .number n => .number n
  | .string s => .string s
  | .array items => .array (itemsToReading items)
  | .object members => .object (membersToReading members)

/-- The items of an array. -/
def itemsToReading : List Json → List Reading
  | [] => []
  | item :: rest => toReading item :: itemsToReading rest

/-- The members of an object. -/
def membersToReading : List (String × Json) → List (Option String × Reading)
  | [] => []
  | (key, value) :: rest => (some key, toReading value) :: membersToReading rest

end

mutual

/-- The value that was read, if nothing in it is missing. The members of every object are sorted,
and of two members with one key the later one stays. -/
def Reading.value? : Reading → Option Json
  | .null => some .null
  | .bool b => some (.bool b)
  | .number n => some (.number n)
  | .string s => some (.string s)
  | .array items => (Reading.items? items).map .array
  | .object members => (Reading.members? [] members).map .object
  | .valueless => none
  | .cut => none

/-- The items of an array. -/
def Reading.items? : List Reading → Option (List Json)
  | [] => some []
  | item :: rest => match Reading.value? item, Reading.items? rest with
    | some value, some values => some (value :: values)
    | _, _ => none

/-- The members of an object, put among those before them. -/
def Reading.members? (sofar : List (String × Json)) :
    List (Option String × Reading) → Option (List (String × Json))
  | [] => some sofar
  | (key, item) :: rest => match key, Reading.value? item with
    | some key, some value => Reading.members? (insertMember key value sofar) rest
    | _, _ => none

end

/-- The value that a text holds, if it holds one and nothing else. -/
def ofText? (s : String) : Option Json :=
  let document := Document.ofChars s.toList
  if document.ending = .complete then document.root.value? else none

end Weblog.Json
