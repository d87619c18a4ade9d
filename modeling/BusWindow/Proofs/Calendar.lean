import BusWindow.Timestamp.Reader
import Mathlib.Tactic.IntervalCases

/-!
# The calendar — every day has a date, and the date leads back to the day

    A day of an era is reached by centuries, by spans of four years, by
    years and by days, counted from the first of March. Only the year that
    ends in a leap day has one day more, so a day has just one such place,
    and all the divisions of the calendar can be read off it.

    * `ofDays_eq` is the date of a place;
    * `toDays_ofDays` says that no day is lost, and `isDate_ofDays` that
      every date is one of the calendar's.
-/

namespace BusWindow.Date

/-- The place of a day in an era: the centuries, the spans of four years, the
    years and the days before it. The last day of a longer year is a leap
    day. -/
structure EraDay where
  century : Nat
  span : Nat
  year : Nat
  day : Nat
  century_le : century ≤ 3
  span_le : span ≤ 24
  year_le : year ≤ 3
  day_le : day ≤ 365
  leap : day = 365 → year = 3 ∧ (span = 24 → century = 3)

namespace EraDay

/-- The days of the era before a day. -/
def index (e : EraDay) : Nat := 36524 * e.century + 1461 * e.span + 365 * e.year + e.day

/-- The years of the era before a day. -/
def yearOfEra (e : EraDay) : Nat := 100 * e.century + 4 * e.span + e.year

/-- Every day of an era has a place. -/
theorem exists_index_eq {n : Nat} (h : n < 146097) : ∃ e : EraDay, e.index = n := by
  -- the last day of a century, of a span and of a year does not begin a new one
  obtain ⟨c, r, hc, hr, hlast, rfl⟩ : ∃ c r, c ≤ 3 ∧ r ≤ 36524 ∧ (r = 36524 → c = 3)
      ∧ 36524 * c + r = n := by
    by_cases hn : n = 146096
    · exact ⟨3, 36524, by omega, by omega, by omega, by omega⟩
    · exact ⟨n / 36524, n % 36524, by omega, by omega, by omega, by omega⟩
  obtain ⟨s, q, hs, hq, hsplit⟩ : ∃ s q, s ≤ 24 ∧ q ≤ 1460 ∧ 1461 * s + q = r :=
    ⟨r / 1461, r % 1461, by omega, by omega, by omega⟩
  obtain ⟨y, d, hy, hd, hleap, hsplit'⟩ : ∃ y d, y ≤ 3 ∧ d ≤ 365 ∧ (d = 365 → y = 3)
      ∧ 365 * y + d = q := by
    by_cases hq' : q = 1460
    · exact ⟨3, 365, by omega, by omega, by omega, by omega⟩
    · exact ⟨q / 365, q % 365, by omega, by omega, by omega, by omega⟩
  refine ⟨⟨c, s, y, d, hc, hs, hy, hd, ?_⟩, ?_⟩
  · intro h365
    refine ⟨hleap h365, ?_⟩
    intro h24
    exact hlast (by omega)
  · show 36524 * c + 1461 * s + 365 * y + d = 36524 * c + r
    omega

/-- A century is counted too early only on the last day of an era. -/
theorem centuries_eq (e : EraDay) : e.index / 36524 = e.century + e.index / 146096 := by
  obtain ⟨c, s, y, d, hc, hs, hy, hd, hleap⟩ := e
  simp only [index]
  by_cases hlast : 36524 * c + 1461 * s + 365 * y + d = 146096
  · omega
  · have hfits : 1461 * s + 365 * y + d < 36524 := by omega
    omega

/-- A leap day is counted too early only at the end of a span. -/
theorem leapDays_eq (e : EraDay) :
    ∃ early, e.index / 1460 = 25 * e.century + e.span + early
      ∧ early ≤ e.day ∧ e.day < 365 + early := by
  obtain ⟨c, s, y, d, hc, hs, hy, hd, hleap⟩ := e
  simp only [index]
  by_cases hlate : 24 * c + s + 365 * y + d < 1460
  · exact ⟨0, by omega, by omega, by omega⟩
  · exact ⟨1, by omega, by omega, by omega⟩

/-- The years before a day are found by taking off one day for each leap day
    before it. -/
theorem yearOfEra_eq (e : EraDay) :
    (e.index - e.index / 1460 + e.index / 36524 - e.index / 146096) / 365 = e.yearOfEra := by
  obtain ⟨early, hleap, hle, hlt⟩ := e.leapDays_eq
  have hindex : e.index = 36524 * e.century + 1461 * e.span + 365 * e.year + e.day := rfl
  have hyears : e.index - (25 * e.century + e.span + early) + (e.century + e.index / 146096)
      - e.index / 146096 = 365 * e.yearOfEra + (e.day - early) := by
    rw [yearOfEra]
    omega
  rw [hleap, e.centuries_eq, hyears]
  omega

theorem index_lt (e : EraDay) : e.index < 146097 := by
  obtain ⟨c, s, y, d, hc, hs, hy, hd, -⟩ := e
  simp only [index]
  omega

theorem yearOfEra_lt (e : EraDay) : e.yearOfEra < 400 := by
  obtain ⟨c, s, y, d, hc, hs, hy, -, -⟩ := e
  simp only [yearOfEra]
  omega

/-- The days of the era before the year of a day begins. -/
theorem index_eq (e : EraDay) :
    365 * e.yearOfEra + e.yearOfEra / 4 - e.yearOfEra / 100 + e.day = e.index := by
  obtain ⟨c, s, y, d, hc, hs, hy, hd, -⟩ := e
  simp only [index, yearOfEra]
  omega

/-- The months of the year before a day, counted from March on. -/
def monthFromMarch (e : EraDay) : Nat := (5 * e.day + 2) / 153

/-- The month of a day. -/
def month (e : EraDay) : Nat :=
  if e.monthFromMarch < 10 then e.monthFromMarch + 3 else e.monthFromMarch - 9

/-- The number of a day in its month. -/
def dayOfMonth (e : EraDay) : Nat := e.day - (153 * e.monthFromMarch + 2) / 5 + 1

theorem monthFromMarch_le (e : EraDay) : e.monthFromMarch ≤ 11 := by
  have hday := e.day_le
  rw [monthFromMarch]
  omega

theorem month_bounds (e : EraDay) : 1 ≤ e.month ∧ e.month ≤ 12 := by
  have hmonth := e.monthFromMarch_le
  rw [month]
  split <;> omega

/-- A day comes after the months before it and before the next month. -/
theorem day_bounds (e : EraDay) :
    (153 * e.monthFromMarch + 2) / 5 ≤ e.day
      ∧ e.day < (153 * (e.monthFromMarch + 1) + 2) / 5 := by
  rw [monthFromMarch]
  omega

/-- A leap day stands in a leap year. -/
theorem isLeapYear_of_leapDay {e : EraDay} (h : e.day = 365) (era : Int) :
    isLeapYear (era * 400 + e.yearOfEra + 1) = true := by
  obtain ⟨hyear, hlast⟩ := e.leap h
  have hcentury := e.century_le
  have hspan := e.span_le
  simp only [isLeapYear, yearOfEra, hyear, Bool.and_eq_true, Bool.or_eq_true, beq_iff_eq,
    bne_iff_ne, ne_eq]
  by_cases h24 : e.span = 24
  · have h3 := hlast h24
    omega
  · omega

end EraDay

/-- Every day has a place in an era. -/
theorem exists_eraDay (days : Int) :
    ∃ (era : Int) (e : EraDay), days = era * 146097 + e.index - 719468 := by
  obtain ⟨e, he⟩ := EraDay.exists_index_eq (n := ((days + 719468) % 146097).toNat) (by omega)
  exact ⟨(days + 719468) / 146097, e, by omega⟩

/-- The date of a place. -/
theorem ofDays_eq (era : Int) (e : EraDay) :
    ofDays (era * 146097 + e.index - 719468)
      = ⟨era * 400 + e.yearOfEra + (if e.month ≤ 2 then 1 else 0), e.month, e.dayOfMonth⟩ := by
  have hlt := e.index_lt
  have hera : (era * 146097 + e.index - 719468 + 719468) / 146097 = era := by omega
  have hday : ((era * 146097 + e.index - 719468 + 719468) % 146097).toNat = e.index := by omega
  have hofYear :
      e.index - (365 * e.yearOfEra + e.yearOfEra / 4 - e.yearOfEra / 100) = e.day := by
    rw [← e.index_eq, Nat.add_sub_cancel_left]
  simp only [ofDays, hera, hday, e.yearOfEra_eq, hofYear]
  rfl

/-- A date of the calendar. -/
structure IsDate (date : Date) : Prop where
  month_pos : 1 ≤ date.month
  month_le : date.month ≤ 12
  day_pos : 1 ≤ date.day
  day_le : date.day ≤ daysInMonth date.year date.month

theorem daysInMonth_le (year : Int) (month : Nat) : daysInMonth year month ≤ 31 := by
  rw [daysInMonth]
  split
  · split <;> decide
  · split <;> decide

/-- From March to January, the months are as long as the days counted before
    them say. -/
theorem daysInMonth_fromMarch (year : Int) {m : Nat} (h : m ≤ 10) :
    daysInMonth year (if m < 10 then m + 3 else m - 9)
      = (153 * (m + 1) + 2) / 5 - (153 * m + 2) / 5 := by
  interval_cases m <;> rfl

/-- No day lies behind the end of its month. -/
theorem EraDay.dayOfMonth_le (e : EraDay) {year : Int}
    (leap : e.day = 365 → isLeapYear year = true) :
    e.dayOfMonth ≤ daysInMonth year e.month := by
  obtain ⟨hfrom, hbelow⟩ := e.day_bounds
  have hmonth := e.monthFromMarch_le
  rw [dayOfMonth, month]
  by_cases hlast : e.monthFromMarch ≤ 10
  · rw [daysInMonth_fromMarch year hlast]
    omega
  · -- February, which ends the year, has a last day only in some years
    have hfebruary : e.monthFromMarch = 11 := by omega
    have hday := e.day_le
    rw [hfebruary]
    show e.day - 337 + 1 ≤ if isLeapYear year then 29 else 28
    split
    · omega
    · next hnot =>
      have hother : e.day ≠ 365 := fun h => hnot (leap h)
      omega

/-- **EVERY DAY HAS A DATE**: what the calendar gives for a day is one of its
    dates. -/
theorem isDate_ofDays (days : Int) : IsDate (ofDays days) := by
  obtain ⟨era, e, rfl⟩ := exists_eraDay days
  obtain ⟨hpos, hle⟩ := e.month_bounds
  rw [ofDays_eq]
  refine ⟨hpos, hle, Nat.le_add_left 1 _, e.dayOfMonth_le fun hleap => ?_⟩
  -- the leap day stands in February, and so in the year after the one of March
  have hfebruary : e.month = 2 := by
    rw [EraDay.month, EraDay.monthFromMarch, hleap]
    rfl
  rw [hfebruary, if_pos (Nat.le_refl 2)]
  exact EraDay.isLeapYear_of_leapDay hleap era

/-- **NO DAY IS LOST**: the date of a day leads back to the day. -/
theorem toDays_ofDays (days : Int) : (ofDays days).toDays = days := by
  obtain ⟨era, e, rfl⟩ := exists_eraDay days
  obtain ⟨hfrom, -⟩ := e.day_bounds
  have hyear : e.yearOfEra < 400 := e.yearOfEra_lt
  have hmonth := e.monthFromMarch_le
  have hindex := e.index_eq
  rw [ofDays_eq, toDays]
  -- the year that begins in March
  have hmarch : (if e.month ≤ 2
      then era * 400 + e.yearOfEra + (if e.month ≤ 2 then 1 else 0) - 1
      else era * 400 + e.yearOfEra + (if e.month ≤ 2 then 1 else 0))
        = era * 400 + e.yearOfEra := by
    split <;> omega
  have hfromMarch : ((e.month : Int) + 9) % 12 = e.monthFromMarch := by
    rw [EraDay.month]
    split <;> omega
  simp only [hmarch, hfromMarch]
  have hera : (era * 400 + e.yearOfEra : Int) / 400 = era := by omega
  have hofEra : (era * 400 + e.yearOfEra : Int) % 400 = e.yearOfEra := by omega
  have hday : (e.dayOfMonth : Int)
      = e.day - ((153 * e.monthFromMarch + 2) / 5 : Nat) + 1 := by
    rw [EraDay.dayOfMonth]
    omega
  rw [hera, hofEra, hday, ← hindex]
  omega

end BusWindow.Date
