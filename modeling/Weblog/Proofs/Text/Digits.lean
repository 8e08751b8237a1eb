import Mathlib.Data.List.Basic
import Mathlib.Data.List.TakeWhile
import Weblog.Text.Digits

/-!
# Written digits

Numbers come back from the digits that are written for them, in decimals of any width
(`ofDigits_decimal`, `ofDigits_padded`) and in hexadecimal digits of a fixed width (`ofHex?_hex`).
-/

namespace Weblog.Text

/-! ## Decimal digits -/

theorem digit_facts : ∀ n < 10, isDigit (digitChar n) = true ∧ digitValue (digitChar n) = n ∧
    (digitChar n = '0' → n = 0) := by
  decide

theorem isDigit_digitChar {n : Nat} (h : n < 10) : isDigit (digitChar n) = true :=
  (digit_facts n h).1

theorem digitValue_digitChar {n : Nat} (h : n < 10) : digitValue (digitChar n) = n :=
  (digit_facts n h).2.1

/-- A text consists of digits. -/
def Digits (cs : List Char) : Prop :=
  ∀ c ∈ cs, isDigit c = true

theorem Digits.append {cs ds : List Char} (hcs : Digits cs) (hds : Digits ds) : Digits (cs ++ ds) :=
  fun c hc => (List.mem_append.mp hc).elim (hcs c) (hds c)

theorem digits_singleton {n : Nat} (h : n < 10) : Digits [digitChar n] :=
  fun _ hc => List.mem_singleton.mp hc ▸ isDigit_digitChar h

theorem digits_decimal (n : Nat) : Digits (decimal n) := by
  fun_induction decimal n with
  | case1 n hn => exact digits_singleton hn
  | case2 n hn ih => exact ih.append (digits_singleton (Nat.mod_lt n (by decide)))

theorem decimal_ne_nil (n : Nat) : decimal n ≠ [] := by
  rw [decimal]
  split <;> simp

theorem ofDigits_concat (cs : List Char) (c : Char) :
    ofDigits (cs ++ [c]) = 10 * ofDigits cs + digitValue c := by
  simp [ofDigits]

theorem ofDigits_decimal (n : Nat) : ofDigits (decimal n) = n := by
  fun_induction decimal n with
  | case1 n hn => simp [ofDigits, digitValue_digitChar hn]
  | case2 n hn ih =>
    rw [ofDigits_concat, ih, digitValue_digitChar (Nat.mod_lt n (by decide))]
    omega

/-- Only zero is written with a zero in front. -/
theorem decimal_of_head_zero {n : Nat} (h : (decimal n).head? = some '0') : n = 0 := by
  fun_induction decimal n with
  | case1 n hn => exact (digit_facts n hn).2.2 (by simpa using h)
  | case2 n hn ih =>
    rw [List.head?_append_of_ne_nil _ (decimal_ne_nil _)] at h
    have := ih h
    omega

/-- Further digits make a number no smaller. -/
theorem le_foldl_digits (n : Nat) (cs : List Char) :
    n ≤ cs.foldl (fun n c => 10 * n + digitValue c) n := by
  induction cs generalizing n with
  | nil => exact Nat.le_refl n
  | cons c rest ih =>
    have := ih (10 * n + digitValue c)
    rw [List.foldl_cons]
    omega

/-! ## Padded decimals -/

theorem ofDigits_replicate_append (zeros : Nat) (cs : List Char) :
    ofDigits (List.replicate zeros '0' ++ cs) = ofDigits cs := by
  induction zeros with
  | zero => rfl
  | succ zeros ih => exact ih

theorem ofDigits_padded (width n : Nat) : ofDigits (padded width n) = n := by
  rw [padded, ofDigits_replicate_append, ofDigits_decimal]

theorem digits_padded (width n : Nat) : Digits (padded width n) := by
  refine Digits.append (fun c hc => ?_) (digits_decimal n)
  rw [List.eq_of_mem_replicate hc]
  rfl

theorem padded_ne_nil (width n : Nat) : padded width n ≠ [] := by
  simp [padded, decimal_ne_nil]

theorem tenTo_succ (zeros : Nat) : tenTo (zeros + 1) = 10 * tenTo zeros :=
  Nat.mul_comm _ _

/-- A number with few enough digits. -/
theorem length_decimal_le {width n : Nat} (hn : n < tenTo width) (hwidth : width ≠ 0) :
    (decimal n).length ≤ width := by
  induction width generalizing n with
  | zero => exact absurd rfl hwidth
  | succ width ih =>
    rw [decimal]
    split
    · simp
    · rename_i hbig
      rw [tenTo_succ] at hn
      have hzero : width ≠ 0 := by
        rintro rfl
        exact hbig hn
      have := ih (n := n / 10) (by omega) hzero
      simp only [List.length_append, List.length_singleton]
      omega

theorem length_padded {width n : Nat} (hn : n < tenTo width) (hwidth : width ≠ 0) :
    (padded width n).length = width := by
  have := length_decimal_le hn hwidth
  simp only [padded, List.length_append, List.length_replicate]
  omega

/-! ## Runs of digits -/

/-- A text does not go on with a digit. -/
def EndsDigits (cs : List Char) : Prop :=
  ∀ c, cs.head? = some c → isDigit c = false

theorem takeWhile_digits {cs rest : List Char} (hcs : Digits cs) (hrest : EndsDigits rest) :
    (cs ++ rest).takeWhile isDigit = cs := by
  have hnone : rest.takeWhile isDigit = [] := by
    cases rest with
    | nil => rfl
    | cons c rest => simp [hrest c rfl]
  rw [List.takeWhile_append_of_pos hcs, hnone, List.append_nil]

theorem dropWhile_digits {cs rest : List Char} (hcs : Digits cs) (hrest : EndsDigits rest) :
    (cs ++ rest).dropWhile isDigit = rest := by
  rw [List.dropWhile_append_of_pos hcs]
  cases rest with
  | nil => rfl
  | cons c rest => simp [hrest c rfl]

/-! ## Hexadecimal digits -/

theorem hexValue?_hexChar : ∀ n < 16, hexValue? (hexChar n) = some n := by
  decide

@[simp] theorem length_hex (width n : Nat) : (hex width n).length = width := by
  induction width generalizing n with
  | zero => rfl
  | succ width ih => simp [hex, ih]

theorem shiftRight_digit (n places : Nat) :
    n >>> (4 * (places + 1)) = (n / 16) >>> (4 * places) := by
  have hdigit : n >>> 4 = n / 16 := by omega
  rw [Nat.mul_succ, Nat.add_comm, Nat.shiftRight_add, hdigit]

/-- The digits of a number are those of its leading part and those of the rest. -/
theorem hex_append (high low n : Nat) :
    hex high (n >>> (4 * low)) ++ hex low n = hex (high + low) n := by
  induction low generalizing n with
  | zero => simp [hex]
  | succ low ih =>
    rw [shiftRight_digit, hex, ← List.append_assoc, ih]
    rfl

theorem ofHex?_concat (cs : List Char) (c : Char) :
    ofHex? (cs ++ [c]) = (ofHex? cs).bind fun n => (hexValue? c).map (16 * n + ·) := by
  simp only [ofHex?, List.foldlM_append, List.foldlM_cons, List.foldlM_nil, bind_pure]
  rfl

theorem ofHex?_hex {width n : Nat} (hn : n >>> (4 * width) = 0) :
    ofHex? (hex width n) = some n := by
  induction width generalizing n with
  | zero => exact congrArg some hn.symm
  | succ width ih =>
    rw [shiftRight_digit] at hn
    rw [hex, ofHex?_concat, ih hn, Option.bind_some,
      hexValue?_hexChar _ (Nat.mod_lt n (by decide)), Option.map_some, Nat.div_add_mod]

end Weblog.Text
