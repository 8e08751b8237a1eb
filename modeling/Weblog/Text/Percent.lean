import Weblog.Text.Digits

/-!
# Percent signs

In an address a percent sign and two hexadecimal digits stand for a byte. Resolving them leaves
those alone that stand for a protected character, and a percent sign without two digits is an
ordinary character. Every text is read from left to right, and what a byte resolves to is not
resolved again.
-/

namespace Weblog.Text

/-- The byte that two hexadecimal digits denote. -/
def hexPair? (high low : Char) : Option Nat := do
  return 16 * (← hexValue? high) + (← hexValue? low)

/-- The character that a byte stands for. A byte beyond ASCII is a part of some other character;
no address and no identifier has one, so the replacement character takes its place. -/
def byteChar (n : Nat) : Char :=
  if n < 0x80 then Char.ofNat n else '\uFFFD'

/-- Resolves the percent signs of a text, except those that stand for a protected character. -/
def resolve (protect : List Char) : List Char → List Char
  | '%' :: high :: low :: rest =>
    match hexPair? high low with
    | some n =>
      if byteChar n ∈ protect then '%' :: resolve protect (high :: low :: rest)
      else byteChar n :: resolve protect rest
    | none => '%' :: resolve protect (high :: low :: rest)
  | c :: rest => c :: resolve protect rest
  | [] => []

end Weblog.Text
