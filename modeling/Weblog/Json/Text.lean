import Weblog.Json.Basic

/-!
# The text of JSON values

A value is written without blanks. In a string the quotation mark, the backslash and the control
characters below the space are escaped, five of those by a letter and the others by their four
hexadecimal digits; every other character stands for itself.
-/

namespace Weblog.Json

open Text

def stringChar (c : Char) : List Char :=
  if c = '"' then ['\\', '"']
  else if c = '\\' then ['\\', '\\']
  else if c.toNat = 0x08 then ['\\', 'b']
  else if c.toNat = 0x09 then ['\\', 't']
  else if c.toNat = 0x0A then ['\\', 'n']
  else if c.toNat = 0x0C then ['\\', 'f']
  else if c.toNat = 0x0D then ['\\', 'r']
  else if c.toNat < 0x20 then ['\\', 'u'] ++ hex 4 c.toNat
  else [c]

/-- A text in quotation marks. -/
def stringChars (s : String) : List Char :=
  '"' :: (s.toList.flatMap stringChar ++ ['"'])

def Number.toChars : Number → List Char
  | .integer n => signedDecimal n
  | .real x => x.toChars

mutual

def toChars : Json → List Char
  | .null => ['n', 'u', 'l', 'l']
  | .bool true => ['t', 'r', 'u', 'e']
  | .bool false => ['f', 'a', 'l', 's', 'e']
  | .number n => n.toChars
  | .string s => stringChars s
  | .array items => '[' :: (itemsChars items ++ [']'])
  | .object members => '{' :: (membersChars members ++ ['}'])

def itemsChars : List Json → List Char
  | [] => []
  | item :: rest => toChars item ++ moreItemsChars rest

/-- The items of an array after the first, each with a comma in front. -/
def moreItemsChars : List Json → List Char
  | [] => []
  | item :: rest => ',' :: (toChars item ++ moreItemsChars rest)

def membersChars : List (String × Json) → List Char
  | [] => []
  | (key, value) :: rest => stringChars key ++ ':' :: (toChars value ++ moreMembersChars rest)

/-- The members of an object after the first, each with a comma in front. -/
def moreMembersChars : List (String × Json) → List Char
  | [] => []
  | (key, value) :: rest =>
    ',' :: (stringChars key ++ ':' :: (toChars value ++ moreMembersChars rest))

end

def toText (j : Json) : String :=
  String.ofList j.toChars

end Weblog.Json
