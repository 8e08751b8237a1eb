import Weblog.Http.Message

/-!
# Media types

A media type is a name of two parts, which parameters may follow. The second part may end in a
suffix that names a syntax. JSON is sent as a type whose second part or whose suffix is `json`.

The parameters are accepted by an automaton that reads one character at a time.
-/

namespace Weblog.Http

/-! ## Parameters -/

/-- Where the reading of parameters is. -/
inductive ParameterState where
  /-- Before a parameter; blanks are passed over. -/
  | start
  | name
  /-- After the equals sign. -/
  | valueStart
  | value
  /-- After the opening quotation mark, where even a quotation mark is part of the value. -/
  | quotedStart
  | quoted
  /-- After the closing quotation mark. -/
  | closed

namespace ParameterState

/-- Whether a character may stand between quotation marks. -/
def isQuotable (c : Char) : Bool :=
  0x20 ≤ c.toNat && c.toNat < 0x7F

def next? (c : Char) : ParameterState → Option ParameterState
  | start => if c = ' ' then some start else if isToken c then some name else none
  | name => if isToken c then some name else if c = '=' then some valueStart else none
  | valueStart => if c = '"' then some quotedStart else if isToken c then some value else none
  | value => if isToken c then some value else if c = ';' then some start else none
  | quotedStart => if isQuotable c then some quoted else none
  | quoted => if c = '"' then some closed else if isQuotable c then some quoted else none
  | closed => if c = ';' then some start else if c = ' ' then some closed else none

/-- Whether the parameters may end here. -/
def isFinal : ParameterState → Bool
  | start | valueStart | value | closed => true
  | name | quotedStart | quoted => false

end ParameterState

/-- Whether a text is a list of parameters. -/
def areParameters (cs : List Char) : Bool :=
  (cs.foldlM (fun (state : ParameterState) c => state.next? c) .start).any (·.isFinal)

/-! ## Types -/

/-- A media type without its parameters. -/
structure MediaType where
  main : List Char
  sub : List Char
  suffix : Option (List Char)
  deriving DecidableEq

namespace MediaType

/-- The type with the given two parts: a suffix follows the last plus sign, unless that begins the
part. -/
def ofParts (main second : List Char) : MediaType :=
  let isInner (c : Char) : Bool := c ≠ '+'
  match (second.reverse.dropWhile isInner).drop 1 with
  | [] => { main, sub := second, suffix := none }
  | before =>
    { main, sub := before.reverse, suffix := some (second.reverse.takeWhile isInner).reverse }

/-- The media type that a text denotes. -/
def ofChars? (cs : List Char) : Option MediaType :=
  match cs.span isToken with
  | ([], _) => none
  | (main, '/' :: rest) =>
    match rest.span isToken with
    | (second, []) => some (ofParts main second)
    | (second, ';' :: parameters) =>
      if second ≠ [] ∧ areParameters parameters then some (ofParts main second) else none
    | _ => none
  | _ => none

/-- Whether values of a type are JSON. -/
def isJson (m : MediaType) : Bool :=
  let json := "json".toList
  m.sub.map Char.toLower = json || m.suffix.any fun suffix => suffix.map Char.toLower = json

end MediaType

end Weblog.Http
