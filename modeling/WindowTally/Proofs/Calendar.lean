import WindowTally.Time.Civil

/-!
# Days of the calendar

The date of a day is worked out backwards: which cycle of 400 years the day is in, which year of the
cycle, which month of the year. Here dates are counted forwards, by the rule for leap years
(`Civil.dayNumber`), and the two agree: the date of a day has that day's number
(`Civil.dayNumber_ofDay`). So different days have different dates (`Civil.ofDay_inj`).

Years are counted from March, so that the leap day is the last day of its year. What is left to show
is that the year found in a cycle is the one that the day lies in (`Civil.yearOfCycle_spec`).
-/
namespace WindowTally.Civil

/-! ## Years of a cycle -/

/-- The year of the cycle, counted from March, that the day `n` of the cycle is in. -/
def yearOfCycle (n : Nat) : Nat := (n - n / 1460 + n / 36524 - n / 146096) / 365

/-- The day of the cycle on which its year `y` begins. -/
def yearStart (y : Nat) : Nat := 365 * y + y / 4 - y / 100

/-- A day of a cycle, but for its last, as a day of a year, which is one of four years of a century.
Only the last of four years has a day 365, and the last year of a century has none. -/
theorem exists_parts {n : Nat} (h : n < 146096) :
    ∃ century four year day, n = 36524 * century + 1461 * four + 365 * year + day ∧
      century ≤ 3 ∧ 1461 * four + 365 * year + day < 36524 ∧
      year ≤ 3 ∧ day ≤ 365 ∧ (day = 365 → year = 3) := by
  refine ⟨n / 36524, n % 36524 / 1461, min (n % 36524 % 1461 / 365) 3,
    n % 36524 % 1461 - 365 * min (n % 36524 % 1461 / 365) 3, ?_⟩
  omega

theorem yearOfCycle_parts {century four year day : Nat} (hcentury : century ≤ 3)
    (hlast : 1461 * four + 365 * year + day < 36524) (hyear : year ≤ 3) (hday : day ≤ 365)
    (hleap : day = 365 → year = 3) :
    yearOfCycle (36524 * century + 1461 * four + 365 * year + day) =
      100 * century + 4 * four + year := by
  have hc : (36524 * century + 1461 * four + 365 * year + day) / 36524 = century := by omega
  have hz : (36524 * century + 1461 * four + 365 * year + day) / 146096 = 0 := by omega
  unfold yearOfCycle
  rw [hc, hz]
  omega

theorem yearStart_parts {century four year : Nat} (hfour : four ≤ 24) (hyear : year ≤ 3) :
    yearStart (100 * century + 4 * four + year) = 36524 * century + 1461 * four + 365 * year := by
  unfold yearStart
  omega

/-- A day of a cycle lies in its year. -/
theorem yearOfCycle_spec {n : Nat} (h : n < 146097) :
    yearStart (yearOfCycle n) ≤ n ∧ n ≤ yearStart (yearOfCycle n) + 365 ∧ yearOfCycle n < 400 := by
  rcases Nat.lt_or_eq_of_le (Nat.le_of_lt_succ h) with hn | rfl
  · obtain ⟨century, four, year, day, rfl, hcentury, hlast, hyear, hday, hleap⟩ := exists_parts hn
    have hfour : four ≤ 24 := by omega
    rw [yearOfCycle_parts hcentury hlast hyear hday hleap, yearStart_parts hfour hyear]
    omega
  · decide

/-! ## Days of a year -/

/-- The date of the day `d` of a year that begins on the first of March. -/
def ofYearDay (year : Int) (d : Nat) : Civil :=
  let month := if (5 * d + 2) / 153 < 10 then (5 * d + 2) / 153 + 3 else (5 * d + 2) / 153 - 9
  ⟨if month ≤ 2 then year + 1 else year, month, d - (153 * ((5 * d + 2) / 153) + 2) / 5 + 1⟩

/-- The year of a date, counted from March. -/
def yearFromMarch (c : Civil) : Int := if c.month ≤ 2 then c.year - 1 else c.year

/-- The day of a date in that year. -/
def dayFromMarch (c : Civil) : Nat :=
  (153 * (if c.month ≤ 2 then c.month + 9 else c.month - 3) + 2) / 5 + c.day - 1

theorem ofYearDay_fromMarch (year : Int) {d : Nat} (hd : d ≤ 365) :
    (ofYearDay year d).yearFromMarch = year ∧ (ofYearDay year d).dayFromMarch = d := by
  unfold ofYearDay yearFromMarch dayFromMarch
  dsimp only
  by_cases hmonth : (5 * d + 2) / 153 < 10
  · have hlate : ¬ (5 * d + 2) / 153 + 3 ≤ 2 := by omega
    simp only [if_pos hmonth, if_neg hlate]
    refine ⟨trivial, ?_⟩
    omega
  · have hearly : (5 * d + 2) / 153 - 9 ≤ 2 := by omega
    simp only [if_neg hmonth, if_pos hearly]
    omega

/-! ## Days of dates -/

/-- The number of a date, in days from 1970-01-01. A year has 365 days, and one more if it is
divisible by four, unless it is divisible by a hundred and not by four hundred. -/
def dayNumber (c : Civil) : Int :=
  365 * c.yearFromMarch + c.yearFromMarch / 4 - c.yearFromMarch / 100 + c.yearFromMarch / 400 +
    c.dayFromMarch - 719468

theorem ofDay_eq (z : Int) : ofDay z =
    ofYearDay (yearOfCycle ((z + 719468) % 146097).toNat + (z + 719468) / 146097 * 400)
      (((z + 719468) % 146097).toNat - yearStart (yearOfCycle ((z + 719468) % 146097).toNat)) :=
  rfl

theorem dayNumber_ofDay (z : Int) : (ofDay z).dayNumber = z := by
  have hn : ((z + 719468) % 146097).toNat < 146097 := by omega
  have hz : z + 719468 = (z + 719468) / 146097 * 146097 + ((z + 719468) % 146097).toNat := by omega
  obtain ⟨hstart, hstop, hlast⟩ := yearOfCycle_spec hn
  unfold dayNumber
  rw [ofDay_eq]
  generalize (z + 719468) / 146097 = cycle at *
  generalize ((z + 719468) % 146097).toNat = n at *
  have hlength : n - yearStart (yearOfCycle n) ≤ 365 := by omega
  obtain ⟨hyear, hday⟩ := ofYearDay_fromMarch (yearOfCycle n + cycle * 400) hlength
  have hfour : (yearOfCycle n + cycle * 400 : Int) / 4 = yearOfCycle n / 4 + cycle * 100 := by omega
  have hcentury : (yearOfCycle n + cycle * 400 : Int) / 100 = yearOfCycle n / 100 + cycle * 4 := by
    omega
  have hcycle : (yearOfCycle n + cycle * 400 : Int) / 400 = cycle := by omega
  rw [hyear, hday, hfour, hcentury, hcycle]
  unfold yearStart at *
  omega

/-- Different days have different dates. -/
theorem ofDay_inj {y z : Int} : ofDay y = ofDay z ↔ y = z := by
  refine ⟨fun h => ?_, congrArg ofDay⟩
  rw [← dayNumber_ofDay y, h, dayNumber_ofDay]

end WindowTally.Civil
