import Weblog.Json.Basic

/-!
# The tokens of JSON text

A text is cut into tokens from the front. A token that is well formed can still have no value: a
string whose escapes name half of a surrogate pair, or a number beyond the floating-point range.
Such a token does no harm where nobody asks for its value. Where no token can be cut off, the
token `invalid` takes the rest of the text.
-/

namespace Weblog.Json

open Text

inductive Token where
  | openObject
  | closeObject
  | openArray
  | closeArray
  | comma
  | colon
  | null
  | bool (b : Bool)
  | number (value : Option Number)
  | string (value : Option String)
  | invalid

/-! ## Numbers -/

/-- The parts of a number's text. -/
structure Literal where
  negative : Bool
  whole : List Char
  fraction : Option (List Char)
  exponent : Option Int

/-- The greatest integer of 64 bits without sign. -/
def maxUnsigned : Nat := 1 <<< 64 - 1

/-- Takes digits into a significand as long as it fits 64 bits, and says which are left. -/
def gather (significand : Nat) : List Char → Nat × List Char
  | [] => (significand, [])
  | c :: rest =>
    let next := 10 * significand + digitValue c
    if next ≤ maxUnsigned then gather next rest else (significand, c :: rest)

/-- The value of a number's text: an integer if it has neither fraction nor exponent and fits 64
bits, otherwise the floating-point number of as many leading digits as fit 64 bits, scaled by the
power of ten of the last of them. -/
def Literal.value? (l : Literal) : Option Number :=
  let (whole, beyond) := gather 0 l.whole
  let real (significand : Nat) (power : Int) : Option Number :=
    (Binary64.ofDecimal? l.negative significand power).map .real
  match l.fraction, l.exponent with
  | none, none =>
    if beyond ≠ [] then real whole beyond.length
    else if !l.negative then some (.integer whole)
    else if whole ≠ 0 ∧ whole ≤ 1 <<< 63 then some (.integer (-whole))
    else real whole 0
  | fraction, exponent =>
    let digits := fraction.getD []
    let (significand, dropped) := gather whole digits
    real significand (beyond.length - ((digits.length : Int) - dropped.length) + exponent.getD 0)

/-- The sign at the head of a text, minus or plus, and the rest. -/
def readSign : List Char → Bool × List Char
  | '-' :: rest => (true, rest)
  | '+' :: rest => (false, rest)
  | cs => (false, cs)

/-- The digits after a decimal point, if the text begins with one. -/
def readFraction? : List Char → Option (Option (List Char) × List Char)
  | '.' :: rest =>
    if rest.takeWhile isDigit = [] then none
    else some (some (rest.takeWhile isDigit), rest.dropWhile isDigit)
  | cs => some (none, cs)

/-- The exponent that a sign and a run of digits denote. -/
def exponentOf (negative : Bool) (digits : List Char) : Int :=
  if negative then -(ofDigits digits : Int) else ofDigits digits

/-- The exponent, if the text begins with its mark. -/
def readExponent? : List Char → Option (Option Int × List Char)
  | [] => some (none, [])
  | c :: rest =>
    if c = 'e' ∨ c = 'E' then
      let signed := readSign rest
      let digits := signed.2.takeWhile isDigit
      if digits = [] then none
      else some (some (exponentOf signed.1 digits), signed.2.dropWhile isDigit)
    else some (none, c :: rest)

/-- The number at the head of a text, which begins with a minus sign or a digit. Only zero itself
has a leading zero. -/
def readNumber? (negative : Bool) (cs : List Char) : Option (Literal × List Char) :=
  let whole := cs.takeWhile isDigit
  if whole = [] ∨ (whole.head? = some '0' ∧ whole.length ≠ 1) then none
  else do
    let (fraction, cs) ← readFraction? (cs.dropWhile isDigit)
    let (exponent, cs) ← readExponent? cs
    return (⟨negative, whole, fraction, exponent⟩, cs)

/-! ## Strings -/

/-- A piece of a string's text: a character, or the 16 bits that an escape names. -/
inductive Piece where
  | char (c : Char)
  | bits (n : Nat)

/-- The character that a letter after a backslash stands for. -/
def unescapeLetter? : Char → Option Char
  | '"' => some '"'
  | '\\' => some '\\'
  | '/' => some '/'
  | 'b' => some '\x08'
  | 'f' => some '\x0C'
  | 'n' => some '\n'
  | 'r' => some '\r'
  | 't' => some '\t'
  | _ => none

/-- The pieces of a string, newest first, up to its closing quotation mark, and the text after it.
Control characters below the space and unknown escapes are refused. -/
def readString? (pieces : List Piece) : List Char → Option (List Piece × List Char)
  | [] => none
  | '"' :: rest => some (pieces, rest)
  | '\\' :: 'u' :: a :: b :: c :: d :: rest =>
    match ofHex? [a, b, c, d] with
    | some n => readString? (.bits n :: pieces) rest
    | none => none
  | '\\' :: letter :: rest =>
    match unescapeLetter? letter with
    | some c => readString? (.char c :: pieces) rest
    | none => none
  | c :: rest => if c.toNat < 0x20 then none else readString? (.char c :: pieces) rest

/-- Whether 16 bits are the first half of a surrogate pair. -/
def isHighSurrogate (n : Nat) : Bool := 0xD800 ≤ n && n ≤ 0xDBFF

/-- Whether 16 bits are the second half of a surrogate pair. -/
def isLowSurrogate (n : Nat) : Bool := 0xDC00 ≤ n && n ≤ 0xDFFF

/-- The characters of pieces that come newest first, put in front of the characters after them.
Both halves of a surrogate pair make one character, and neither half is one by itself. -/
def joinPieces? (after : List Char) : List Piece → Option (List Char)
  | [] => some after
  | .char c :: rest => joinPieces? (c :: after) rest
  | .bits low :: .bits high :: rest =>
    if isLowSurrogate low then
      if isHighSurrogate high then
        joinPieces? (Char.ofNat (0x10000 + (high - 0xD800) * 0x400 + (low - 0xDC00)) :: after) rest
      else none
    else if isHighSurrogate low then none
    else joinPieces? (Char.ofNat low :: after) (.bits high :: rest)
  | .bits n :: rest =>
    if isLowSurrogate n || isHighSurrogate n then none else joinPieces? (Char.ofNat n :: after) rest

/-! ## Tokens -/

/-- Whether a character may stand between tokens. -/
def isGap (c : Char) : Bool :=
  c = ' ' || c = '\n' || c = '\t' || c = '\r'

/-- The first token of a text and the rest, or nothing if the text is blank. -/
def nextToken? (cs : List Char) : Option (Token × List Char) :=
  match cs.dropWhile isGap with
  | [] => none
  | '{' :: rest => some (.openObject, rest)
  | '}' :: rest => some (.closeObject, rest)
  | '[' :: rest => some (.openArray, rest)
  | ']' :: rest => some (.closeArray, rest)
  | ',' :: rest => some (.comma, rest)
  | ':' :: rest => some (.colon, rest)
  | 'n' :: 'u' :: 'l' :: 'l' :: rest => some (.null, rest)
  | 't' :: 'r' :: 'u' :: 'e' :: rest => some (.bool true, rest)
  | 'f' :: 'a' :: 'l' :: 's' :: 'e' :: rest => some (.bool false, rest)
  | '"' :: rest =>
    match readString? [] rest with
    | some (pieces, rest) => some (.string ((joinPieces? [] pieces).map String.ofList), rest)
    | none => some (.invalid, [])
  | '-' :: rest =>
    match readNumber? true rest with
    | some (literal, rest) => some (.number literal.value?, rest)
    | none => some (.invalid, [])
  | c :: rest =>
    match readNumber? false (c :: rest) with
    | some (literal, rest) => some (.number literal.value?, rest)
    | none => some (.invalid, [])

/-! ## What is left grows shorter -/

theorem length_dropWhile_le {α : Type} (p : α → Bool) (cs : List α) :
    (cs.dropWhile p).length ≤ cs.length :=
  (List.dropWhile_suffix p).length_le

theorem length_readFraction? {cs rest : List Char} {f : Option (List Char)}
    (h : readFraction? cs = some (f, rest)) : rest.length ≤ cs.length := by
  unfold readFraction? at h
  split at h
  · rename_i tail
    split at h
    · cases h
    · have := length_dropWhile_le isDigit tail
      cases h
      simp only [List.length_cons]
      omega
  · cases h
    exact Nat.le_refl _

theorem length_readSign (cs : List Char) : (readSign cs).2.length ≤ cs.length := by
  unfold readSign
  split <;> simp

theorem length_readExponent? {cs rest : List Char} {e : Option Int}
    (h : readExponent? cs = some (e, rest)) : rest.length ≤ cs.length := by
  unfold readExponent? at h
  split at h
  · cases h
    exact Nat.le_refl _
  · rename_i c tail
    split at h
    · simp only at h
      split at h
      · cases h
      · have := length_dropWhile_le isDigit (readSign tail).2
        have := length_readSign tail
        cases h
        simp only [List.length_cons]
        omega
    · cases h
      exact Nat.le_refl _

theorem length_readNumber? {negative : Bool} {cs rest : List Char} {l : Literal}
    (h : readNumber? negative cs = some (l, rest)) : rest.length < cs.length := by
  unfold readNumber? at h
  simp only at h
  split at h
  · cases h
  · rename_i hw
    cases cs with
    | nil => simp at hw
    | cons c tail =>
      have hc : isDigit c = true := by
        cases hd : isDigit c with
        | true => rfl
        | false => simp [hd] at hw
      simp only [List.dropWhile_cons, hc, if_true] at h
      cases hf : readFraction? (tail.dropWhile isDigit) with
      | none => simp [hf] at h
      | some fraction =>
        obtain ⟨f, r⟩ := fraction
        cases he : readExponent? r with
        | none => simp [hf, he] at h
        | some exponent =>
          obtain ⟨e, r'⟩ := exponent
          simp [hf, he] at h
          have h1 := length_dropWhile_le isDigit tail
          have h2 := length_readFraction? hf
          have h3 := length_readExponent? he
          simp only [List.length_cons]
          rw [← h.2]
          omega

theorem length_readString? {cs : List Char} : ∀ {pieces : List Piece} {found : List Piece}
    {rest : List Char}, readString? pieces cs = some (found, rest) → rest.length < cs.length := by
  intro pieces found rest h
  fun_induction readString? pieces cs with
  | case1 => cases h
  | case2 pieces tail =>
    cases h
    simp
  | case3 pieces a b c d tail n hn ih =>
    have := ih h
    simp only [List.length_cons]
    omega
  | case4 => cases h
  | case5 pieces letter tail _ c hc ih =>
    have := ih h
    simp only [List.length_cons]
    omega
  | case6 => cases h
  | case7 => cases h
  | case8 pieces c tail _ _ _ hc ih =>
    have := ih h
    simp only [List.length_cons]
    omega

/-- Every token shortens the text. -/
theorem length_nextToken? {cs rest : List Char} {t : Token} (h : nextToken? cs = some (t, rest)) :
    rest.length < cs.length := by
  have hd := length_dropWhile_le isGap cs
  unfold nextToken? at h
  split at h
  · cases h
  all_goals rename_i heq; rw [heq] at hd; simp only [List.length_cons] at hd
  all_goals first
    | (cases h; omega)
    | (split at h
       · rename_i hr
         cases h
         first
           | (have hl := length_readString? hr; omega)
           | (have hl := length_readNumber? hr; omega)
           | (have hl := length_readNumber? hr; simp only [List.length_cons] at hl; omega)
       · cases h
         simp only [List.length_nil]
         omega)

end Weblog.Json
