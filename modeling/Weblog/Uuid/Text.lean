import Weblog.Text.Digits
import Weblog.Uuid.Basic

/-!
# The text of identifiers

An identifier is written as 32 hexadecimal digits in lower case, in groups of 8, 4, 4, 4 and 12
joined by hyphens. It is read from that form, with digits in either case, from the 32 digits
alone, and from the grouped form in braces or after `urn:uuid:`.
-/

namespace Weblog.Uuid

open Text

/-- The grouped form of an identifier. -/
def toChars (id : Uuid) : List Char :=
  hex 8 (id.value >>> 96) ++ '-' :: (hex 4 (id.value >>> 80) ++ '-' ::
    (hex 4 (id.value >>> 64) ++ '-' :: (hex 4 (id.value >>> 48) ++ '-' ::
      hex 12 id.value)))

def toText (id : Uuid) : String :=
  String.ofList id.toChars

instance : ToString Uuid := ⟨toText⟩

/-- The identifier of 32 hexadecimal digits. -/
def ofDigits? (digits : List Char) : Option Uuid :=
  if digits.length = 32 then (ofHex? digits).map ofNat else none

/-- The characters of a text of 36 without the hyphens that divide it into groups, or nothing if
one of the four is missing. -/
def ungroup? (cs : List Char) : Option (List Char) :=
  match cs.splitAt 8 with
  | (a, '-' :: cs) => match cs.splitAt 4 with
    | (b, '-' :: cs) => match cs.splitAt 4 with
      | (c, '-' :: cs) => match cs.splitAt 4 with
        | (d, '-' :: e) => some (a ++ b ++ c ++ d ++ e)
        | _ => none
      | _ => none
    | _ => none
  | _ => none

/-- The identifier of a grouped form. -/
def ofGroups? (cs : List Char) : Option Uuid :=
  (ungroup? cs).bind ofDigits?

/-- What stands before the grouped form in a uniform resource name, in lower case. -/
def urnLead : List Char := ['u', 'r', 'n', ':', 'u', 'u', 'i', 'd', ':']

/-- The identifier that a text denotes in any of its forms. -/
def ofChars? (cs : List Char) : Option Uuid :=
  if cs.length = 32 then ofDigits? cs
  else if cs.length = 36 then ofGroups? cs
  else if cs.length = 38 ∧ cs.head? = some '{' ∧ cs.getLast? = some '}' then
    ofGroups? (cs.drop 1).dropLast
  else if cs.length = 45 ∧ (cs.take 9).map Char.toLower = urnLead then ofGroups? (cs.drop 9)
  else none

def ofText? (s : String) : Option Uuid :=
  ofChars? s.toList

end Weblog.Uuid
