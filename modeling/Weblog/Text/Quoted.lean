import Weblog.Text.Digits
import Weblog.Text.Hidden

/-!
# Quoted text

A text is quoted for a reader of messages: it stands between quotation marks, and the quotation
mark, the backslash and every character that would not be seen as itself are written out.
-/

namespace Weblog.Text

/-- The hexadecimal digits of a number, without leading zeros. -/
def hexDigits (n : Nat) : List Char :=
  match (hex 6 n).dropWhile (· = '0') with
  | [] => ['0']
  | digits => digits

/-- A character inside a quoted text. -/
def quoteChar (c : Char) : List Char :=
  if c = '"' then ['\\', '"']
  else if c = '\\' then ['\\', '\\']
  else if c = '\n' then ['\\', 'n']
  else if c = '\r' then ['\\', 'r']
  else if c = '\t' then ['\\', 't']
  else if c.toNat = 0 then ['\\', '0']
  else if isHidden c then ['\\', 'u', '\x7b'] ++ hexDigits c.toNat ++ ['\x7d']
  else [c]

/-- A text between quotation marks. -/
def quoted (cs : List Char) : List Char :=
  '"' :: (cs.flatMap quoteChar ++ ['"'])

end Weblog.Text
