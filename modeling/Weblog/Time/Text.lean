import Weblog.Text.Blank
import Weblog.Text.Digits
import Weblog.Time.Instant

/-!
# The text of instants

An instant is written as RFC 3339 has it: date, `T`, time and `Z`. The fraction of the second is
left out when it is zero and has 3, 6 or 9 digits otherwise, the fewest that are exact. A year
outside 0 to 9999 has a sign, and a leap second is second 60.

Reading is laxer than writing. `T`, `t` or a space divides date and time, fields may have fewer
digits than usual and blanks in front, digits of the fraction beyond the ninth are dropped, and
the time may be given for any offset from UTC of less than a day.
-/

namespace Weblog

open Text Time

namespace Instant

/-! ## Writing -/

/-- A year in at least four digits, with a sign if it lies outside 0 to 9999. -/
def yearChars (year : Int) : List Char :=
  if year < 0 then '-' :: padded 4 year.natAbs
  else if year ≤ 9999 then padded 4 year.natAbs
  else '+' :: padded 4 year.natAbs

/-- The fraction of a second with its point, in the fewest of 0, 3, 6 and 9 digits. -/
def fractionChars (nanos : Nat) : List Char :=
  if nanos = 0 then []
  else if nanos % 1000000 = 0 then '.' :: padded 3 (nanos / 1000000)
  else if nanos % 1000 = 0 then '.' :: padded 6 (nanos / 1000)
  else '.' :: padded 9 nanos

/-- The written form of an instant. -/
def toChars (t : Instant) : List Char :=
  let date := Date.ofDays (t.seconds / 86400)
  let ofDay := (t.seconds % 86400).toNat
  let second := ofDay % 60 + t.nanos / 1000000000
  yearChars date.year ++ '-' :: (padded 2 date.month ++ '-' :: (padded 2 date.day ++ 'T' ::
    (padded 2 (ofDay / 3600) ++ ':' :: (padded 2 (ofDay / 60 % 60) ++ ':' :: (padded 2 second ++
      (fractionChars (t.nanos % 1000000000) ++ ['Z']))))))

def toText (t : Instant) : String :=
  String.ofList t.toChars

instance : ToString Instant := ⟨toText⟩

/-! ## Reading -/

/-- The number at the head of a text, of at least one digit and at most as many as the width. -/
def readNumber (width : Nat) (cs : List Char) : Option (Nat × List Char) :=
  let run := (cs.take width).takeWhile isDigit
  if run = [] then none else some (ofDigits run, cs.drop run.length)

/-- A field of one or two digits, with blanks in front. -/
def readField (cs : List Char) : Option (Nat × List Char) :=
  readNumber 2 (trimStart cs)

/-- A year: four digits at most, or any number of them after a sign. -/
def readYear (cs : List Char) : Option (Int × List Char) :=
  match trimStart cs with
  | '-' :: rest => (readNumber rest.length rest).map fun (n, rest) => (-(n : Int), rest)
  | '+' :: rest => (readNumber rest.length rest).map fun (n, rest) => ((n : Int), rest)
  | rest => (readNumber 4 rest).map fun (n, rest) => ((n : Int), rest)

/-- What follows a mark at the head of a text. -/
def readMark (mark : Char) : List Char → Option (List Char)
  | c :: rest => if c = mark then some rest else none
  | [] => none

/-- A date: year, month and day divided by hyphens, with blanks allowed around each. -/
def readDate (cs : List Char) : Option (Date × List Char) := do
  let (year, cs) ← readYear cs
  let cs ← readMark '-' (trimStart cs)
  let (month, cs) ← readField cs
  let cs ← readMark '-' (trimStart cs)
  let (day, cs) ← readField cs
  return (⟨year, month, day⟩, cs)

/-- The nanoseconds of a fraction: a point and at least one digit, of which nine count. Without a
point there is no fraction. -/
def readFraction : List Char → Option (Nat × List Char)
  | '.' :: cs =>
    let run := (cs.take 9).takeWhile isDigit
    if run = [] then none
    else some (ofDigits run * tenTo (9 - run.length), (cs.drop run.length).dropWhile isDigit)
  | cs => some (0, cs)

/-- The time of a day, of which the second may be 60: hour, minute, second and nanoseconds. -/
structure TimeOfDay where
  hour : Nat
  minute : Nat
  second : Nat
  nanos : Nat

def readTimeOfDay (cs : List Char) : Option (TimeOfDay × List Char) := do
  let (hour, cs) ← readField cs
  let cs ← readMark ':' (trimStart cs)
  let (minute, cs) ← readField cs
  let cs ← readMark ':' (trimStart cs)
  let (second, cs) ← readField cs
  let (nanos, cs) ← readFraction cs
  return (⟨hour, minute, second, nanos⟩, cs)

/-- Exactly two digits. -/
def readPair : List Char → Option (Nat × List Char)
  | a :: b :: rest => if isDigit a ∧ isDigit b then some (ofDigits [a, b], rest) else none
  | _ => none

/-- The seconds of an offset without its sign: two digits of hours and two of minutes, with any
colons and blanks between. -/
def readOffset (cs : List Char) : Option (Int × List Char) := do
  let (hours, cs) ← readPair cs
  let (minutes, cs) ← readPair (cs.dropWhile fun c => c = ':' || isBlank c)
  if minutes < 60 then return ((hours * 3600 + minutes * 60 : Nat), cs) else none

/-- The seconds that local time is ahead of UTC: none for `Z` and `UTC` in either case, else an
offset after a plus or a minus sign. -/
def readZone (cs : List Char) : Option (Int × List Char) :=
  if (cs.take 3).map Char.toLower = ['u', 't', 'c'] then some (0, cs.drop 3)
  else match cs with
    | 'Z' :: rest | 'z' :: rest => some (0, rest)
    | '+' :: rest => readOffset rest
    | '-' :: rest | '\u2212' :: rest => (readOffset rest).map fun (n, rest) => (-n, rest)
    | _ => none

/-- The instant of a date and a time given for an offset from UTC, if the calendar and the clock
have them and the instant can be told. -/
def ofLocal? (date : Date) (time : TimeOfDay) (offset : Int) : Option Instant :=
  if date.Valid ∧ -262143 ≤ date.year ∧ date.year ≤ 262142 ∧ time.hour < 24 ∧ time.minute < 60 ∧
      time.second ≤ 60 ∧ -86400 < offset ∧ offset < 86400 then
    let second := min time.second 59
    let ofDay : Int := time.hour * 3600 + time.minute * 60 + second
    ofUnix? (date.toDays * 86400 + ofDay - offset)
      (time.nanos + 1000000000 * (time.second - second))
  else none

/-- Whether a character may divide date and time. -/
def isDivider (c : Char) : Bool :=
  c = 'T' || c = 't' || c = ' '

/-- The instant that a text denotes. Blanks may follow it and nothing else. -/
def ofChars? (cs : List Char) : Option Instant := do
  let (date, cs) ← readDate cs
  let (divider, cs) ← cs.head?.map fun c => (c, cs.tail)
  if !isDivider divider then none
  else
    let (time, cs) ← readTimeOfDay cs
    let (offset, cs) ← readZone (trimStart cs)
    if trimStart cs = [] then ofLocal? date time offset else none

def ofText? (s : String) : Option Instant :=
  ofChars? s.toList

end Instant

end Weblog
