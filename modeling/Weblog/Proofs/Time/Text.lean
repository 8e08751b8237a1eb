import Weblog.Proofs.Text.Digits
import Weblog.Proofs.Text.Trim
import Weblog.Proofs.Time.Calendar
import Weblog.Time.Text

/-!
# Written instants

Every instant is read back from its text (`ofText?_toText`), whatever its year, its fraction of a
second and whether it is a leap second. One lemma for each part of the text says that its reader
takes that part and leaves the rest.
-/

namespace Weblog.Instant

open Text Time

/-! ## Numbers -/

theorem isBlank_of_isDigit {c : Char} (h : isDigit c = true) : isBlank c = false := by
  have hapart : ∀ range ∈ blankRanges, range.2 < 48 ∨ 57 < range.1 := by decide
  simp only [isDigit, Bool.and_eq_true, decide_eq_true_eq] at h
  refine List.any_eq_false.mpr fun range hrange => ?_
  have := hapart range hrange
  simp only [Bool.and_eq_true, decide_eq_true_eq]
  omega

/-- Digits have no blanks in front. -/
theorem trimStart_digits {cs : List Char} (hcs : Digits cs) (hne : cs ≠ []) (rest : List Char) :
    trimStart (cs ++ rest) = cs ++ rest := by
  refine trimStart_of_head fun c hc => isBlank_of_isDigit (hcs c ?_)
  rw [List.head?_append_of_ne_nil _ hne] at hc
  exact List.mem_of_head? hc

theorem trimStart_cons {c : Char} (hc : isBlank c = false) (rest : List Char) :
    trimStart (c :: rest) = c :: rest :=
  trimStart_of_head fun _ hd => Option.some.inj hd ▸ hc

/-- Digits of which there are not too many are taken to their end. -/
theorem takeWhile_take_digits {width : Nat} {cs rest : List Char} (hcs : Digits cs)
    (hlength : cs.length ≤ width) (hrest : EndsDigits rest) :
    ((cs ++ rest).take width).takeWhile isDigit = cs := by
  have htake : EndsDigits (rest.take (width - cs.length)) := by
    intro c hc
    rw [List.head?_take] at hc
    split at hc
    · cases hc
    · exact hrest c hc
  rw [List.take_append, List.take_of_length_le hlength, takeWhile_digits hcs htake]

theorem readNumber_digits {width : Nat} {cs rest : List Char} (hcs : Digits cs) (hne : cs ≠ [])
    (hlength : cs.length ≤ width) (hrest : EndsDigits rest) :
    readNumber width (cs ++ rest) = some (ofDigits cs, rest) := by
  simp only [readNumber, takeWhile_take_digits hcs hlength hrest, if_neg hne, List.drop_left]

/-- A written field of two digits is read. -/
theorem readField_padded {n : Nat} (hn : n < 100) {rest : List Char} (hrest : EndsDigits rest) :
    readField (padded 2 n ++ rest) = some (n, rest) := by
  have hdigits := digits_padded 2 n
  have hne := padded_ne_nil 2 n
  have hlength : (padded 2 n).length = 2 := length_padded hn (by decide)
  rw [readField, trimStart_digits hdigits hne, readNumber_digits hdigits hne hlength.le hrest,
    ofDigits_padded]

theorem readMark_cons {c : Char} (hc : isBlank c = false) (rest : List Char) :
    readMark c (trimStart (c :: rest)) = some rest := by
  rw [trimStart_cons hc, readMark, if_pos rfl]

/-! ## Dates -/

theorem endsDigits_cons {c : Char} (hc : isDigit c = false) (rest : List Char) :
    EndsDigits (c :: rest) :=
  fun _ hd => Option.some.inj hd ▸ hc

theorem readYear_yearChars (year : Int) {rest : List Char} (hrest : EndsDigits rest) :
    readYear (yearChars year ++ rest) = some (year, rest) := by
  have hdigits := digits_padded 4 year.natAbs
  have hne := padded_ne_nil 4 year.natAbs
  -- after a sign any number of digits is read
  have hsigned : readNumber (padded 4 year.natAbs ++ rest).length
      (padded 4 year.natAbs ++ rest) = some (year.natAbs, rest) := by
    rw [readNumber_digits hdigits hne (by simp) hrest, ofDigits_padded]
  unfold yearChars
  split
  case isTrue hnegative =>
    have hyear : -(year.natAbs : Int) = year := by omega
    rw [List.cons_append, readYear, trimStart_cons (by decide)]
    simp only [hsigned, Option.map_some, hyear]
  split
  case isTrue hnonneg hsmall =>
    have hlength : (padded 4 year.natAbs).length = 4 :=
      length_padded (by change year.natAbs < 10000; omega) (by decide)
    have hyear : (year.natAbs : Int) = year := by omega
    have hplain : readNumber 4 (padded 4 year.natAbs ++ rest) = some (year.natAbs, rest) := by
      rw [readNumber_digits hdigits hne hlength.le hrest, ofDigits_padded]
    obtain ⟨c, cs, hcs⟩ := List.exists_cons_of_ne_nil hne
    have hc : isDigit c = true := hdigits c (by rw [hcs]; exact List.mem_cons_self)
    rw [readYear, trimStart_digits hdigits hne]
    split
    case h_1 heq | h_2 heq =>
      rw [hcs, List.cons_append] at heq
      obtain ⟨rfl, -⟩ := List.cons.inj heq
      exact absurd hc (by decide)
    simp only [hplain, Option.map_some, hyear]
  case isFalse hnonneg hlarge =>
    have hyear : (year.natAbs : Int) = year := by omega
    rw [List.cons_append, readYear, trimStart_cons (by decide)]
    simp only [hsigned, Option.map_some, hyear]

/-- The date at the front of the text of an instant. -/
def dateChars (date : Date) (rest : List Char) : List Char :=
  yearChars date.year ++ '-' :: (padded 2 date.month ++ '-' :: (padded 2 date.day ++ rest))

theorem readDate_dateChars {date : Date} (hmonth : date.month < 100) (hday : date.day < 100)
    {rest : List Char} (hrest : EndsDigits rest) :
    readDate (dateChars date rest) = some (date, rest) := by
  have hends (rest : List Char) : EndsDigits ('-' :: rest) := endsDigits_cons (by decide) rest
  simp only [readDate, dateChars, readYear_yearChars date.year (hends _), readField_padded hmonth
    (hends _), readField_padded hday hrest, readMark_cons (c := '-') (by decide),
    Option.bind_eq_bind, Option.bind_some, Option.pure_def]

/-! ## Times -/

theorem readFraction_padded {width n : Nat} (hwidth : width ≠ 0) (hle : width ≤ 9)
    (hn : n < tenTo width) {rest : List Char} (hrest : EndsDigits rest) :
    readFraction ('.' :: (padded width n ++ rest)) = some (n * tenTo (9 - width), rest) := by
  have hlength := length_padded hn hwidth
  have hrun := takeWhile_take_digits (digits_padded width n) (hlength.le.trans hle) hrest
  have hleft : rest.dropWhile isDigit = rest :=
    @dropWhile_digits [] rest (List.forall_mem_nil _) hrest
  simp only [readFraction, hrun, if_neg (padded_ne_nil width n), ofDigits_padded, hlength,
    List.drop_left' hlength, hleft]

/-- The fraction of a second is read whichever of its forms is written. -/
theorem readFraction_fractionChars {nanos : Nat} (hnanos : nanos < 1000000000) {rest : List Char}
    (hrest : EndsDigits rest) (hpoint : rest.head? ≠ some '.') :
    readFraction (fractionChars nanos ++ rest) = some (nanos, rest) := by
  unfold fractionChars
  split
  case isTrue hzero =>
    rw [List.nil_append, readFraction, hzero]
    rintro rest rfl
    exact hpoint rfl
  split
  case isTrue hmillis =>
    have hn : nanos / 1000000 < tenTo 3 := by
      change _ < 1000
      omega
    have hback : nanos / 1000000 * tenTo (9 - 3) = nanos := by
      change _ * 1000000 = _
      omega
    rw [List.cons_append, readFraction_padded (by decide) (by decide) hn hrest, hback]
  split
  case isTrue hmicros =>
    have hn : nanos / 1000 < tenTo 6 := by
      change _ < 1000000
      omega
    have hback : nanos / 1000 * tenTo (9 - 6) = nanos := by
      change _ * 1000 = _
      omega
    rw [List.cons_append, readFraction_padded (by decide) (by decide) hn hrest, hback]
  case isFalse =>
    rw [List.cons_append, readFraction_padded (by decide) (by decide) hnanos hrest]
    exact congrArg (fun n => some (n, rest)) (Nat.mul_one nanos)

/-- The time at the end of the text of an instant. -/
def timeChars (time : TimeOfDay) (rest : List Char) : List Char :=
  padded 2 time.hour ++ ':' :: (padded 2 time.minute ++ ':' :: (padded 2 time.second ++
    (fractionChars time.nanos ++ rest)))

theorem readTimeOfDay_timeChars {time : TimeOfDay} (hhour : time.hour < 100)
    (hminute : time.minute < 100) (hsecond : time.second < 100) (hnanos : time.nanos < 1000000000)
    {rest : List Char} (hrest : EndsDigits rest) (hpoint : rest.head? ≠ some '.') :
    readTimeOfDay (timeChars time rest) = some (time, rest) := by
  have hends (rest : List Char) : EndsDigits (':' :: rest) := endsDigits_cons (by decide) rest
  have hfraction : EndsDigits (fractionChars time.nanos ++ rest) := by
    unfold fractionChars
    split
    · exact hrest
    · split
      · exact endsDigits_cons (by decide) _
      · split <;> exact endsDigits_cons (by decide) _
  simp only [readTimeOfDay, timeChars, readField_padded hhour (hends _), readField_padded hminute
    (hends _), readField_padded hsecond hfraction, readFraction_fractionChars hnanos hrest hpoint,
    readMark_cons (c := ':') (by decide), Option.bind_eq_bind, Option.bind_some, Option.pure_def]

/-! ## Instants -/

/-- The date of an instant. -/
def date (t : Instant) : Date :=
  Date.ofDays (t.seconds / 86400)

/-- The time of the day of an instant, with second 60 in a leap second. -/
def timeOfDay (t : Instant) : TimeOfDay :=
  let ofDay := (t.seconds % 86400).toNat
  { hour := ofDay / 3600, minute := ofDay / 60 % 60
    second := ofDay % 60 + t.nanos / 1000000000, nanos := t.nanos % 1000000000 }

theorem toChars_eq (t : Instant) :
    t.toChars = dateChars t.date ('T' :: timeChars t.timeOfDay ['Z']) :=
  rfl

/-- The date and the time of an instant are those of no other instant. -/
theorem ofLocal?_self (t : Instant) : ofLocal? t.date t.timeOfDay 0 = some t := by
  obtain ⟨seconds, nanos, hvalid⟩ := t
  have ⟨hfirst, hlast, hnanos⟩ := hvalid
  unfold firstSecond at hfirst
  unfold lastSecond at hlast
  have hyear := @Date.year_ofDays (seconds / 86400) (by omega) (by omega)
  simp only [ofLocal?, date, timeOfDay, Date.toDays_ofDays]
  generalize hofDay : (seconds % 86400).toNat = ofDay
  have hclock : ofDay / 3600 < 24 ∧ ofDay / 60 % 60 < 60 ∧
      ofDay % 60 + nanos / 1000000000 ≤ 60 := by omega
  -- a leap second is counted as the second before it and a longer fraction
  have hseconds : seconds / 86400 * 86400 + (((ofDay / 3600 : Nat) : Int) * 3600 +
      ((ofDay / 60 % 60 : Nat) : Int) * 60 +
      ((min (ofDay % 60 + nanos / 1000000000) 59 : Nat) : Int)) - 0 = seconds := by omega
  have hfraction : nanos % 1000000000 + 1000000000 * (ofDay % 60 + nanos / 1000000000 -
      min (ofDay % 60 + nanos / 1000000000) 59) = nanos := by omega
  rw [if_pos ⟨Date.valid_ofDays _, hyear.1, hyear.2, hclock.1, hclock.2.1, hclock.2.2, by decide,
    by decide⟩, hseconds, hfraction, ofUnix?, dif_pos hvalid]

theorem ofChars?_toChars (t : Instant) : ofChars? t.toChars = some t := by
  have hmonth := Date.month_ofDays (t.seconds / 86400)
  have hday := (Date.valid_ofDays (t.seconds / 86400)).2.trans (Date.daysInMonth_le _ _)
  have htime : t.timeOfDay.hour < 100 ∧ t.timeOfDay.minute < 100 ∧ t.timeOfDay.second < 100 ∧
      t.timeOfDay.nanos < 1000000000 := by
    obtain ⟨seconds, nanos, -, -, hnanos⟩ := t
    simp only [timeOfDay]
    omega
  have hdate := @readDate_dateChars t.date (by unfold date; omega) (by unfold date; omega) _
    (endsDigits_cons (c := 'T') (by decide) (timeChars t.timeOfDay ['Z']))
  have hclock := readTimeOfDay_timeChars htime.1 htime.2.1 htime.2.2.1 htime.2.2.2
    (endsDigits_cons (c := 'Z') (by decide) []) (by decide)
  have hzone : readZone (trimStart ['Z']) = some (0, []) := by decide
  have hdivider : (!isDivider 'T') = false := rfl
  simp only [ofChars?, toChars_eq, hdate, hclock, hzone, hdivider, Option.bind_eq_bind,
    Option.bind_some, List.head?_cons, List.tail_cons, Option.map_some, Bool.false_eq_true,
    if_false]
  exact (if_pos rfl).trans (ofLocal?_self t)

/-- An instant is read back from its text. -/
theorem ofText?_toText (t : Instant) : ofText? t.toText = some t := by
  rw [ofText?, toText, String.toList_ofList, ofChars?_toChars]

end Weblog.Instant
