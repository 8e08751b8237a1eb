import Weblog.Text.Digits

/-!
# Whole numbers with a limit

A whole number is read from decimal digits, with a plus sign in front at most, and must not exceed
a limit. The digits are taken from the left: the first one that is no digit or that makes the
number too large decides what is said.
-/

namespace Weblog.Text

/-- Why a text is no whole number within a limit. -/
inductive NumberProblem where
  | empty
  | notDigit
  | tooLarge
  deriving DecidableEq

/-- What is said about a text that is no number. -/
def NumberProblem.message : NumberProblem → String
  | .empty => "cannot parse integer from empty string"
  | .notDigit => "invalid digit found in string"
  | .tooLarge => "number too large to fit in target type"

/-- Takes digits into a number, from the left. -/
def takeDigits (limit : Nat) : (number : Nat) → List Char → Except NumberProblem Nat
  | number, [] => .ok number
  | number, c :: rest =>
    if !isDigit c then .error .notDigit
    else
      let next := 10 * number + digitValue c
      if limit < next then .error .tooLarge else takeDigits limit next rest

/-- The whole number that a text denotes. -/
def readUnsigned (limit : Nat) : List Char → Except NumberProblem Nat
  | [] => .error .empty
  | ['+'] => .error .notDigit
  | '+' :: digits => takeDigits limit 0 digits
  | digits => takeDigits limit 0 digits

/-- The pieces of a text between the occurrences of a character. -/
def splitAtEach (separator : Char) : List Char → List (List Char)
  | [] => [[]]
  | c :: rest =>
    if c = separator then [] :: splitAtEach separator rest
    else match splitAtEach separator rest with
      | piece :: pieces => (c :: piece) :: pieces
      | [] => [[c]]

end Weblog.Text
