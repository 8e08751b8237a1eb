import Weblog.Json.Text
import Weblog.Json.Token
import Weblog.Proofs.Text.Digits

/-!
# The tokens of written text

The text that is written for a string or a number is one token, whose value is that string or
number. A number is written up to where no digit, point or exponent follows.
-/

namespace Weblog.Json

open Text

/-! ## Strings -/

/-- A piece of a string's text stands for a character. -/
def Piece.StandsFor (c : Char) : Piece → Prop
  | .char d => d = c
  | .bits n => n = c.toNat ∧ n < 0x20

/-- A piece that stands for a character is joined as that character. -/
theorem joinPieces?_cons {c : Char} {p : Piece} (h : p.StandsFor c) (after : List Char)
    (rest : List Piece) : joinPieces? after (p :: rest) = joinPieces? (c :: after) rest := by
  cases p with
  | char d => rw [joinPieces?, show d = c from h]
  | bits n =>
    obtain ⟨hn, hsmall⟩ := h
    have hlow : isLowSurrogate n = false := by simp [isLowSurrogate]; omega
    have hhigh : isHighSurrogate n = false := by simp [isHighSurrogate]; omega
    have hc : Char.ofNat n = c := by rw [hn, Char.ofNat_toNat]
    cases rest with
    | nil => simp [joinPieces?, hlow, hhigh, hc]
    | cons q rest => cases q <;> simp [joinPieces?, hlow, hhigh, hc]

/-- What is written for a character is read as one piece, which stands for it. -/
theorem readString?_stringChar (c : Char) : ∃ p : Piece, p.StandsFor c ∧
    ∀ pieces rest, readString? pieces (stringChar c ++ rest) = readString? (p :: pieces) rest := by
  unfold stringChar
  have hletter {letter : Char} (hu : letter ≠ 'u') (hc : unescapeLetter? letter = some c) :
      ∃ p : Piece, p.StandsFor c ∧ ∀ pieces rest,
        readString? pieces (['\\', letter] ++ rest) = readString? (p :: pieces) rest := by
    refine ⟨.char c, rfl, fun pieces rest => ?_⟩
    rw [List.cons_append, List.cons_append, List.nil_append, readString?]
    · simp only [hc]
    · exact fun _ _ _ _ _ h => absurd h hu
  have hcode {n : Nat} (hn : c.toNat = n) : c = Char.ofNat n := by rw [← hn, Char.ofNat_toNat]
  split
  · exact hletter (by decide) (by simp_all [unescapeLetter?])
  split
  · exact hletter (by decide) (by simp_all [unescapeLetter?])
  split
  · exact hletter (by decide) (by rw [hcode ‹_›]; rfl)
  split
  · exact hletter (by decide) (by rw [hcode ‹_›]; rfl)
  split
  · exact hletter (by decide) (by rw [hcode ‹_›]; rfl)
  split
  · exact hletter (by decide) (by rw [hcode ‹_›]; rfl)
  split
  · exact hletter (by decide) (by rw [hcode ‹_›]; rfl)
  split
  case isTrue hcontrol =>
    have hread : ofHex? (hex 4 c.toNat) = some c.toNat := ofHex?_hex (by omega)
    obtain ⟨d₁, d₂, d₃, d₄, hdigits⟩ : ∃ d₁ d₂ d₃ d₄, hex 4 c.toNat = [d₁, d₂, d₃, d₄] :=
      ⟨_, _, _, _, rfl⟩
    rw [hdigits] at hread ⊢
    refine ⟨.bits c.toNat, ⟨rfl, hcontrol⟩, fun pieces rest => ?_⟩
    simp only [List.cons_append, List.nil_append]
    rw [readString?]
    simp only [hread]
  case isFalse hquote hslash _ _ _ _ _ hplain =>
    refine ⟨.char c, rfl, fun pieces rest => ?_⟩
    rw [List.singleton_append, readString?, if_neg hplain]
    all_goals grind

/-- The text of a string is read up to its end. -/
theorem readString?_append (cs rest : List Char) (pieces : List Piece) :
    ∃ found, readString? pieces (cs.flatMap stringChar ++ '"' :: rest) =
        some (found ++ pieces, rest) ∧
      ∀ after older, joinPieces? after (found ++ older) = joinPieces? (cs ++ after) older := by
  induction cs generalizing pieces with
  | nil => exact ⟨[], rfl, fun _ _ => rfl⟩
  | cons c cs ih =>
    obtain ⟨p, hp, hread⟩ := readString?_stringChar c
    obtain ⟨found, hfound, hjoin⟩ := ih (p :: pieces)
    refine ⟨found ++ [p], ?_, fun after older => ?_⟩
    · rw [List.flatMap_cons, List.append_assoc, hread, hfound, List.append_assoc]
      rfl
    · rw [List.append_assoc, List.singleton_append, hjoin, joinPieces?_cons hp]
      rfl

theorem nextToken?_quote {cs rest : List Char} {pieces : List Piece}
    (h : readString? [] cs = some (pieces, rest)) :
    nextToken? ('"' :: cs) = some (.string ((joinPieces? [] pieces).map String.ofList), rest) := by
  rw [nextToken?, List.dropWhile_cons_of_neg (by decide)]
  simp only [h]

/-- A written string is one token with the string as its value. -/
theorem nextToken?_stringChars (s : String) (rest : List Char) :
    nextToken? (stringChars s ++ rest) = some (.string (some s), rest) := by
  obtain ⟨found, hfound, hjoin⟩ := readString?_append s.toList rest []
  rw [List.append_nil] at hfound
  have hchars : joinPieces? [] found = some s.toList := by
    have h := hjoin [] []
    rw [List.append_nil, List.append_nil] at h
    exact h
  rw [stringChars, List.cons_append, List.append_assoc, List.singleton_append,
    nextToken?_quote hfound, hchars, Option.map_some, String.ofList_toList]

/-! ## Numbers -/

/-- A text does not go on with anything that could belong to a number. -/
structure EndsNumber (cs : List Char) : Prop where
  digit : EndsDigits cs
  point : cs.head? ≠ some '.'
  exponent : ∀ c, cs.head? = some c → c ≠ 'e' ∧ c ≠ 'E'

theorem EndsNumber.nil : EndsNumber [] where
  digit := by simp [EndsDigits]
  point := by simp
  exponent := by simp

/-- What may follow a value inside an array or an object. -/
theorem ends_facts : ∀ c ∈ [',', ']', '}'],
    isDigit c = false ∧ c ≠ '.' ∧ c ≠ 'e' ∧ c ≠ 'E' := by
  intro c hc
  simp only [List.mem_cons, List.not_mem_nil, or_false] at hc
  obtain rfl | rfl | rfl := hc <;> decide

theorem EndsNumber.cons {c : Char} (hc : c ∈ [',', ']', '}']) (cs : List Char) :
    EndsNumber (c :: cs) where
  digit _ hd := Option.some.inj hd ▸ (ends_facts c hc).1
  point hd := (ends_facts c hc).2.1 (Option.some.inj hd)
  exponent _ hd := Option.some.inj hd ▸ (ends_facts c hc).2.2

/-- A number is exact if it is an integer that fits 64 bits, with or without sign. -/
def Number.Exact : Number → Prop
  | .integer n => -(1 <<< 63 : Nat) ≤ n ∧ n ≤ maxUnsigned
  | .real _ => False

theorem gather_of_le {cs : List Char} {significand : Nat}
    (h : cs.foldl (fun n c => 10 * n + digitValue c) significand ≤ maxUnsigned) :
    gather significand cs = (cs.foldl (fun n c => 10 * n + digitValue c) significand, []) := by
  induction cs generalizing significand with
  | nil => rfl
  | cons c rest ih =>
    have hnext := (le_foldl_digits (10 * significand + digitValue c) rest).trans h
    rw [gather, if_pos hnext]
    exact ih h

theorem gather_decimal {n : Nat} (h : n ≤ maxUnsigned) : gather 0 (decimal n) = (n, []) := by
  have hvalue : (decimal n).foldl (fun n c => 10 * n + digitValue c) 0 = n := ofDigits_decimal n
  rw [gather_of_le (hvalue.trans_le h), hvalue]

theorem readNumber?_decimal (negative : Bool) (n : Nat) {rest : List Char} (h : EndsNumber rest) :
    readNumber? negative (decimal n ++ rest) = some (⟨negative, decimal n, none, none⟩, rest) := by
  have hfraction : readFraction? rest = some (none, rest) := by
    rw [readFraction?]
    rintro rest rfl
    exact h.point rfl
  have hexponent : readExponent? rest = some (none, rest) := by
    cases rest with
    | nil => rfl
    | cons c rest =>
      have hc := h.exponent c rfl
      rw [readExponent?, if_neg (by simp [hc])]
  have hlead : ¬ (decimal n = [] ∨ (decimal n).head? = some '0' ∧ (decimal n).length ≠ 1) := by
    rintro (hnil | ⟨hhead, hlength⟩)
    · exact decimal_ne_nil n hnil
    · obtain rfl := decimal_of_head_zero hhead
      exact hlength (by simp [decimal])
  simp only [readNumber?, takeWhile_digits (digits_decimal n) h.digit,
    dropWhile_digits (digits_decimal n) h.digit, if_neg hlead, hfraction, hexponent,
    Option.bind_eq_bind, Option.bind_some, Option.pure_def]

theorem nextToken?_minus {cs rest : List Char} {l : Literal}
    (h : readNumber? true cs = some (l, rest)) :
    nextToken? ('-' :: cs) = some (.number l.value?, rest) := by
  rw [nextToken?, List.dropWhile_cons_of_neg (by decide)]
  simp only [h]

theorem nextToken?_digit {c : Char} (hc : isDigit c = true) {cs rest : List Char} {l : Literal}
    (h : readNumber? false (c :: cs) = some (l, rest)) :
    nextToken? (c :: cs) = some (.number l.value?, rest) := by
  have hgap : (c :: cs).dropWhile isGap = c :: cs := by
    refine List.dropWhile_cons_of_neg ?_
    simp only [isGap, Bool.or_eq_true, decide_eq_true_eq]
    rintro (((rfl | rfl) | rfl) | rfl) <;> exact absurd hc (by decide)
  rw [nextToken?, hgap]
  split
  case h_13 heq =>
    obtain ⟨rfl, rfl⟩ := List.cons.inj heq
    simp only [h]
  case h_1 heq => cases heq
  -- no other token begins with a digit
  all_goals
    rename_i heq
    obtain ⟨rfl, -⟩ := List.cons.inj heq
    exact absurd hc (by decide)

/-- A written integer is one token with the integer as its value. -/
theorem nextToken?_signedDecimal {n : Int} (hn : Number.Exact (.integer n)) {rest : List Char}
    (hrest : EndsNumber rest) :
    nextToken? (signedDecimal n ++ rest) = some (.number (some (.integer n)), rest) := by
  obtain ⟨hmin, hmax⟩ := hn
  rw [signedDecimal]
  split
  case isTrue hnegative =>
    have hbound : n.natAbs ≤ 1 <<< 63 := by omega
    have hvalue : Literal.value? ⟨true, decimal n.natAbs, none, none⟩ = some (.integer n) := by
      have hgather : gather 0 (decimal n.natAbs) = (n.natAbs, []) :=
        gather_decimal (by unfold maxUnsigned; omega)
      have hself : -(n.natAbs : Int) = n := by omega
      simp only [Literal.value?, hgather]
      rw [if_neg (by simp), if_neg (by simp), if_pos ⟨by omega, hbound⟩, hself]
    rw [List.cons_append, nextToken?_minus (readNumber?_decimal true n.natAbs hrest), hvalue]
  case isFalse hnonneg =>
    have hvalue : Literal.value? ⟨false, decimal n.natAbs, none, none⟩ = some (.integer n) := by
      have hgather : gather 0 (decimal n.natAbs) = (n.natAbs, []) := gather_decimal (by omega)
      have hself : (n.natAbs : Int) = n := by omega
      simp only [Literal.value?, hgather]
      rw [if_neg (by simp), if_pos (by simp), hself]
    have hnumber := readNumber?_decimal false n.natAbs hrest
    obtain ⟨c, cs, hcs⟩ := List.exists_cons_of_ne_nil (decimal_ne_nil n.natAbs)
    have hc : isDigit c = true := digits_decimal n.natAbs c (by rw [hcs]; exact List.mem_cons_self)
    rw [hcs, List.cons_append] at hnumber ⊢
    rw [nextToken?_digit hc hnumber, ← hcs, hvalue]

end Weblog.Json
