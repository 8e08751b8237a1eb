import Weblog.Time.Calendar

/-!
# Days and dates

Every number of days has a date of the calendar, and the date has that number (`valid_ofDays`,
`toDays_ofDays`).

A cycle of 400 years that begin in March has three centuries of 36524 days and a last one of 36525;
a century has periods of four years with 1461 days, the last of which is a day shorter unless its
century is the last one; and a period has three years of 365 days and the rest. `March` is a day
placed in this way, and `exists_march` places every day.
-/

namespace Weblog.Time

namespace Date

/-- The date of a day in a year that begins in March. -/
def ofMarch (year : Int) (dayOfYear : Nat) : Date :=
  let month := (5 * dayOfYear + 2) / 153
  { year := if month < 10 then year else year + 1
    month := if month < 10 then month + 3 else month - 9
    day := dayOfYear + 1 - (153 * month + 2) / 5 }

/-- A day is placed in a cycle, a century of it, a period of the century, a year of the period and
as a day of the year. -/
structure March (days cycle : Int) (century period year dayOfYear : Nat) : Prop where
  century_le : century ≤ 3
  period_le : period ≤ 24
  year_le : year ≤ 3
  dayOfYear_le : dayOfYear ≤ 365
  /-- Only a leap year has a day after the 365th. -/
  leap : dayOfYear = 365 → year = 3 ∧ (period = 24 → century = 3)
  days_eq : days + 719468 =
    146097 * cycle + 36524 * century + 1461 * period + 365 * year + dayOfYear

namespace March

variable {days cycle : Int} {century period year dayOfYear : Nat}
  (h : March days cycle century period year dayOfYear)

include h

/-- The number of the year of the cycle that a day lies in. -/
theorem yearOfCycle_eq {d : Nat}
    (hd : d = 36524 * century + 1461 * period + 365 * year + dayOfYear) :
    (d + d / 36524 - d / 1460 - d / 146096) / 365 = 100 * century + 4 * period + year := by
  obtain ⟨hcentury, hperiod, hyear, hday, hleap, -⟩ := h
  rcases (by omega : d = 146096 ∨ d < 146096) with hlast | hless
  · -- the last day of the cycle
    have hparts : century = 3 ∧ period = 24 ∧ year = 3 := by omega
    rw [hlast, hparts.1, hparts.2.1, hparts.2.2]
  · have hcenturies : d / 36524 = century := by omega
    have hcycles : d / 146096 = 0 := by omega
    obtain ⟨carry, hcarry⟩ : ∃ carry,
        carry = (24 * century + period + 365 * year + dayOfYear) / 1460 := ⟨_, rfl⟩
    have hperiods : d / 1460 = 25 * century + period + carry := by omega
    have hcarried : carry ≤ dayOfYear ∧ dayOfYear < carry + 365 := by omega
    rw [hcenturies, hcycles, hperiods]
    omega

/-- The day of the year that a day of the cycle is. -/
theorem dayOfYear_eq {d y : Nat}
    (hd : d = 36524 * century + 1461 * period + 365 * year + dayOfYear)
    (hy : y = 100 * century + 4 * period + year) :
    d + y / 100 - 365 * y - y / 4 = dayOfYear := by
  obtain ⟨hcentury, hperiod, hyear, -, -, -⟩ := h
  have hcenturies : y / 100 = century := by omega
  have hperiods : y / 4 = 25 * century + period := by omega
  omega

theorem ofDays_eq : ofDays days =
    ofMarch (cycle * 400 + (100 * century + 4 * period + year : Nat)) dayOfYear := by
  obtain ⟨d, hd⟩ : ∃ d, d = 36524 * century + 1461 * period + 365 * year + dayOfYear := ⟨_, rfl⟩
  have hbounds : d < 146097 := by
    obtain ⟨hcentury, hperiod, hyear, hday, hleap, -⟩ := h
    omega
  have hcycle : (days + 719468) / 146097 = cycle := by
    have := h.days_eq
    omega
  have hdayOfCycle : ((days + 719468) % 146097).toNat = d := by
    have := h.days_eq
    omega
  simp only [ofDays, hcycle, hdayOfCycle, h.yearOfCycle_eq hd, h.dayOfYear_eq hd rfl, ofMarch]

end March

/-- Every day has its place. -/
theorem exists_march (days : Int) :
    ∃ cycle century period year dayOfYear, March days cycle century period year dayOfYear := by
  obtain ⟨d, hd⟩ : ∃ d : Nat, (d : Int) = (days + 719468) % 146097 :=
    ⟨((days + 719468) % 146097).toNat, by omega⟩
  obtain ⟨century, hcentury⟩ : ∃ century, century = min (d / 36524) 3 := ⟨_, rfl⟩
  obtain ⟨r, hr⟩ : ∃ r, d = 36524 * century + r := ⟨d - 36524 * century, by omega⟩
  have hshort : r ≤ 36524 ∧ (century < 3 → r < 36524) := by omega
  obtain ⟨year, hyear⟩ : ∃ year, year = min (r % 1461 / 365) 3 := ⟨_, rfl⟩
  obtain ⟨dayOfYear, hday⟩ : ∃ dayOfYear, r % 1461 = 365 * year + dayOfYear :=
    ⟨r % 1461 - 365 * year, by omega⟩
  refine ⟨(days + 719468) / 146097, century, r / 1461, year, dayOfYear, ?_⟩
  constructor <;> omega

/-! ## The date of a day -/

section

variable {year : Int} {dayOfYear : Nat}

/-- The month, counted from March, that a day of the year lies in. -/
theorem exists_month (hday : dayOfYear ≤ 365) : ∃ month ≤ 11, (5 * dayOfYear + 2) / 153 = month ∧
    (153 * month + 2) / 5 ≤ dayOfYear ∧ dayOfYear < (153 * (month + 1) + 2) / 5 :=
  ⟨_, by omega, rfl, by omega, by omega⟩

theorem month_ofMarch (hday : dayOfYear ≤ 365) :
    1 ≤ (ofMarch year dayOfYear).month ∧ (ofMarch year dayOfYear).month ≤ 12 := by
  obtain ⟨month, hle, hmonth, -, -⟩ := exists_month hday
  simp only [ofMarch, hmonth]
  split <;> omega

theorem valid_ofMarch (hday : dayOfYear ≤ 365) (hleap : dayOfYear = 365 → isLeapYear (year + 1)) :
    (ofMarch year dayOfYear).Valid := by
  obtain ⟨month, hle, hmonth, hfrom, huntil⟩ := exists_month hday
  simp only [ofMarch, hmonth, Valid]
  refine ⟨by omega, ?_⟩
  rcases (by omega : month = 0 ∨ month = 1 ∨ month = 2 ∨ month = 3 ∨ month = 4 ∨ month = 5 ∨
    month = 6 ∨ month = 7 ∨ month = 8 ∨ month = 9 ∨ month = 10 ∨ month = 11) with
    rfl | rfl | rfl | rfl | rfl | rfl | rfl | rfl | rfl | rfl | rfl | rfl
  -- February comes last, and only its length is not the same in all years
  case inr.inr.inr.inr.inr.inr.inr.inr.inr.inr.inr =>
    change _ ≤ if isLeapYear (year + 1) then 29 else 28
    split
    · omega
    · rename_i hcommon
      have : dayOfYear ≠ 365 := fun h => hcommon (hleap h)
      omega
  all_goals first
    | (change _ ≤ 31; omega)
    | (change _ ≤ 30; omega)

theorem toDays_ofMarch (hday : dayOfYear ≤ 365) : (ofMarch year dayOfYear).toDays =
    year / 400 * 146097 + (year % 400 * 365 + year % 400 / 4 - year % 400 / 100 + dayOfYear) -
      719468 := by
  obtain ⟨month, hle, hmonth, hfrom, huntil⟩ := exists_month hday
  have hyear : (if (if month < 10 then month + 3 else month - 9) ≤ 2 then
      (if month < 10 then year else year + 1) - 1 else if month < 10 then year else year + 1) =
      year := by
    split <;> split <;> omega
  have hmarch : (((if month < 10 then month + 3 else month - 9 : Nat) : Int) + 9) % 12 = month := by
    split <;> omega
  have hdayOfYear : (153 * (month : Int) + 2) / 5 +
      ((dayOfYear + 1 - (153 * month + 2) / 5 : Nat) : Int) - 1 = dayOfYear := by
    omega
  simp only [ofMarch, hmonth, toDays, hyear, hmarch, hdayOfYear]

end

theorem toDays_ofDays (days : Int) : (ofDays days).toDays = days := by
  obtain ⟨cycle, century, period, year, dayOfYear, h⟩ := exists_march days
  rw [h.ofDays_eq, toDays_ofMarch h.dayOfYear_le]
  obtain ⟨hcentury, hperiod, hyear, -, -, hdays⟩ := h
  obtain ⟨y, hy⟩ : ∃ y, y = 100 * century + 4 * period + year := ⟨_, rfl⟩
  have hcycle : (cycle * 400 + (y : Int)) / 400 = cycle := by omega
  have hyearOfCycle : (cycle * 400 + (y : Int)) % 400 = y := by omega
  rw [← hy, hcycle, hyearOfCycle]
  omega

theorem month_ofDays (days : Int) : 1 ≤ (ofDays days).month ∧ (ofDays days).month ≤ 12 := by
  obtain ⟨_, _, _, _, _, h⟩ := exists_march days
  rw [h.ofDays_eq]
  exact month_ofMarch h.dayOfYear_le

theorem valid_ofDays (days : Int) : (ofDays days).Valid := by
  obtain ⟨cycle, century, period, year, dayOfYear, h⟩ := exists_march days
  rw [h.ofDays_eq]
  refine valid_ofMarch h.dayOfYear_le fun hday => ?_
  obtain ⟨hcentury, hperiod, -, -, hleap, -⟩ := h
  obtain ⟨rfl, hlast⟩ := hleap hday
  simp only [isLeapYear, Bool.and_eq_true, Bool.or_eq_true, bne_iff_ne, decide_eq_true_eq]
  omega

theorem daysInMonth_le (year : Int) (month : Nat) : daysInMonth year month ≤ 31 := by
  unfold daysInMonth
  split
  case h_12 => split <;> decide
  all_goals decide

/-- A day between the first of one year and the last of another lies in the years between them. -/
theorem year_ofDays {days : Int} (hfirst : -96465292 ≤ days) (hlast : days ≤ 95026236) :
    -262143 ≤ (ofDays days).year ∧ (ofDays days).year ≤ 262142 := by
  obtain ⟨cycle, century, period, year, dayOfYear, h⟩ := exists_march days
  rw [h.ofDays_eq]
  obtain ⟨hcentury, hperiod, hyear, hday, hleap, hdays⟩ := h
  have hnewYear : (5 * dayOfYear + 2) / 153 < 10 ↔ dayOfYear < 306 := by omega
  simp only [ofMarch, hnewYear]
  clear hnewYear
  split
  · constructor <;> omega
  · refine ⟨by omega, Int.not_lt.mp fun hlate => ?_⟩
    -- only the second century of the last cycle comes so late
    have hcycle : cycle = 655 := by omega
    have hsecond : century = 1 := by omega
    omega

end Date

end Weblog.Time
