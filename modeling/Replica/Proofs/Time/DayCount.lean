/-
Replica.Proofs.Time.DayCount — dates and counts of days are inverse.

`Date.toDay` counts the days of a date by the same parts that `March` names: the start of a
year counted from March, the start of a month in it, and the day of the month
(`toDay_march`). So the date of a day counts as that day (`toDay_ofDay`), it is a day that the
calendar has (`isValid_ofDay`), and the day after it has the date that comes next by the lengths
of the months (`ofDay_succ`).

The calendar repeats after 400 years (`ofDay_add_cycle`). `onDay` goes on from there to days
before 1970, which the clocks of a place may still show when 1970 has begun in Coordinated
Universal Time.
-/
import Replica.Proofs.Time.Calendar
import Mathlib.Tactic.IntervalCases
import Mathlib.Tactic.SplitIfs

namespace Replica.Date

/-! ## Years and cycles -/

theorem yearStart_succ (y : Nat) :
    yearStart (y + 1) = yearStart y + 365 + (if isLeap (y + 1) then 1 else 0) := by
  have hle : y / 100 ≤ y / 4 := Nat.div_le_div_left (by decide) (by decide)
  have hfour : 100 ∣ y + 1 → 4 ∣ y + 1 := Nat.dvd_trans (by decide)
  have hcentury : 400 ∣ y + 1 → 100 ∣ y + 1 := Nat.dvd_trans (by decide)
  have hleap : isLeap (y + 1) = true ↔ 4 ∣ y + 1 ∧ (¬ 100 ∣ y + 1 ∨ 400 ∣ y + 1) := by
    simp [isLeap, Nat.dvd_iff_mod_eq_zero]
  simp only [yearStart, Nat.succ_div, hleap]
  generalize y / 4 = fours, y / 100 = centuries, y / 400 = cycles at hle ⊢
  by_cases h400 : 400 ∣ y + 1
  · simp only [hfour (hcentury h400), hcentury h400, h400, if_true, or_true, and_self]
    omega
  · by_cases h100 : 100 ∣ y + 1
    · simp only [hfour h100, h100, h400, if_true, if_false, not_true_eq_false, or_self, and_false]
      omega
    · by_cases h4 : 4 ∣ y + 1
      · simp only [h4, h100, h400, if_true, if_false, not_false_eq_true, true_or, and_self]
        omega
      · simp only [h4, h100, h400, if_false, false_and]
        omega

theorem isLeap_add_cycle (y : Nat) : isLeap (y + 400) = isLeap y := by
  have hfour : (y + 400) % 4 = y % 4 := by omega
  have hcentury : (y + 400) % 100 = y % 100 := by omega
  rw [isLeap, hfour, hcentury, Nat.add_mod_right, isLeap]

/-! ## The count of a date -/

/-- A month counted from March counts as itself, in January and February of the next year. -/
theorem toDay_march {m : Nat} (hm : m < 12) (y d : Nat) :
    toDay ⟨if m < 10 then y else y + 1, if m < 10 then m + 3 else m - 9, d + 1⟩
      = (yearStart y + monthStart m + d : Nat) - (epochShift : Int) := by
  have hyear : y = y % 400 + y / 400 * 400 := by omega
  have hstart : yearStart y = cycleDays * (y / 400) + cycleYearStart (y % 400) := by
    rw [← yearStart_add _ _ (Nat.mod_lt y (by decide)), ← hyear]
  have hcycle : (y + 400) / 400 = y / 400 + 1 := by omega
  have hin : (y + 400) % 400 = y % 400 := by omega
  have hcentury : y % 400 / 100 ≤ y % 400 / 4 := by omega
  rw [hstart]
  by_cases h : m < 10
  · have hmonth : ¬ m + 3 ≤ 2 := by omega
    simp only [toDay, if_pos h, if_neg hmonth, hcycle, hin, cycleYearStart, monthStart, cycleDays]
    omega
  · have hmonth : m - 9 ≤ 2 := by omega
    have hback : m - 9 + 9 = m := by omega
    have hnext : y + 1 + 399 = y + 400 := by omega
    simp only [toDay, if_neg h, if_pos hmonth, hback, hnext, hcycle, hin, cycleYearStart,
      monthStart, cycleDays]
    omega

/-- The date of a day counts as that day. -/
theorem toDay_ofDay (n : Nat) : (ofDay n).toDay = n := by
  obtain ⟨y, m, d, h⟩ := exists_march n
  have htotal := h.total
  rw [h.date, toDay_march h.month]
  omega

/-! ## The calendar has every date -/

/-- From March on the months have their lengths, and February has what is left of the year. -/
theorem monthLength_march {m : Nat} (hm : m < 12) (y : Nat) :
    monthLength (if m < 10 then y else y + 1) (if m < 10 then m + 3 else m - 9)
      = if m < 11 then monthStart (m + 1) - monthStart m
        else yearStart (y + 1) - yearStart y - monthStart 11 := by
  interval_cases m
  case «11» =>
    show (if isLeap (y + 1) then 29 else 28) = yearStart (y + 1) - yearStart y - 337
    rw [yearStart_succ]
    split <;> omega
  all_goals rfl

theorem March.day_lt {n y m d : Nat} (h : March n y m d) :
    d < if m < 11 then monthStart (m + 1) - monthStart m
      else yearStart (y + 1) - yearStart y - monthStart 11 := by
  obtain ⟨htotal, hmonth, hyear, hm, -⟩ := h
  split
  · omega
  · have hlast : m = 11 := by omega
    subst hlast
    omega

theorem isValid_ofDay (n : Nat) : (ofDay n).isValid = true := by
  obtain ⟨y, m, d, h⟩ := exists_march n
  have hday := h.day_lt
  rw [← monthLength_march h.month] at hday
  rw [h.date, isValid, Bool.and_eq_true, decide_eq_true_eq, decide_eq_true_eq]
  exact ⟨Nat.succ_pos d, hday⟩

theorem monthLength_le (year month : Nat) : monthLength year month ≤ 31 := by
  unfold monthLength
  split
  case h_12 => split <;> decide
  all_goals decide

/-- The numbers of a date have two digits. -/
theorem bounds_of_isValid {d : Date} (h : d.isValid = true) : d.month ≤ 12 ∧ d.day ≤ 31 := by
  simp only [isValid, Bool.and_eq_true, decide_eq_true_eq] at h
  refine ⟨Nat.le_of_not_lt fun hmonth => ?_, Nat.le_trans h.2 (monthLength_le _ _)⟩
  have hnone : monthLength d.year d.month = 0 := by
    unfold monthLength
    split <;> omega
  omega

/-- The day after, by the lengths of the months. -/
def next (d : Date) : Date :=
  if d.day < monthLength d.year d.month then ⟨d.year, d.month, d.day + 1⟩
  else if d.month < 12 then ⟨d.year, d.month + 1, 1⟩
  else ⟨d.year + 1, 1, 1⟩

/-- A day has one place in the years and months counted from March. -/
theorem March.unique {n y m d y' m' d' : Nat} (h : March n y m d)
    (htotal : n + epochShift = yearStart y' + monthStart m' + d')
    (hmonth : monthStart m' + d' < monthStart (m' + 1))
    (hyear : n + epochShift < yearStart (y' + 1)) : y = y' ∧ m = m' ∧ d = d' := by
  obtain ⟨htotal₀, hmonth₀, hyear₀, -, -⟩ := h
  obtain rfl : y = y' := by
    rcases Nat.lt_trichotomy y y' with hlt | heq | hlt
    · have hmono : yearStart (y + 1) ≤ yearStart y' := yearStart_mono hlt
      omega
    · exact heq
    · have hmono : yearStart (y' + 1) ≤ yearStart y := yearStart_mono hlt
      omega
  obtain rfl : m = m' := by
    rcases Nat.lt_trichotomy m m' with hlt | heq | hlt
    · have hmono : monthStart (m + 1) ≤ monthStart m' := monthStart_mono hlt
      omega
    · exact heq
    · have hmono : monthStart (m' + 1) ≤ monthStart m := monthStart_mono hlt
      omega
  exact ⟨rfl, rfl, by omega⟩

/-- **Dates follow the calendar**: after each day comes the day that the calendar names next. -/
theorem ofDay_succ (n : Nat) : ofDay (n + 1) = (ofDay n).next := by
  obtain ⟨y, m, d, h⟩ := exists_march n
  obtain ⟨y', m', d', h'⟩ := exists_march (n + 1)
  have hday := h.day_lt
  obtain ⟨htotal, hmonth, hyear, hm, hdate⟩ := h
  rw [hdate, h'.date, next]
  dsimp only
  rw [monthLength_march hm]
  have hsucc := yearStart_succ y
  have hlength : yearStart (y + 1) = yearStart y + 365 ∨ yearStart (y + 1) = yearStart y + 366 := by
    split at hsucc <;> omega
  by_cases hmore : d + 1 < if m < 11 then monthStart (m + 1) - monthStart m
      else yearStart (y + 1) - yearStart y - monthStart 11
  · have hplace : monthStart m + (d + 1) < monthStart (m + 1)
        ∧ n + 1 + epochShift < yearStart (y + 1) := by
      unfold monthStart at hmore htotal ⊢
      split at hmore <;> omega
    obtain ⟨rfl, rfl, rfl⟩ : y' = y ∧ m' = m ∧ d' = d + 1 :=
      h'.unique (by omega) hplace.1 hplace.2
    rw [if_pos hmore]
  · rw [if_neg hmore]
    by_cases hfebruary : m = 11
    · subst hfebruary
      rw [if_neg (by decide)] at hmore
      have hend : n + 1 + epochShift = yearStart (y + 1) := by omega
      have hfirst : monthStart 0 = 0 := rfl
      have hnext := yearStart_succ (y + 1)
      obtain ⟨rfl, rfl, rfl⟩ : y' = y + 1 ∧ m' = 0 ∧ d' = 0 :=
        h'.unique (by omega) (by decide) (by omega)
      rfl
    · -- Every month but February is followed by one of the same year counted from March.
      rw [if_pos (by omega)] at hmore
      have hend : monthStart m + d + 1 = monthStart (m + 1) := by omega
      have hlast : monthStart (m + 1) ≤ 337 ∧ monthStart (m + 1) < monthStart (m + 1 + 1) := by
        unfold monthStart
        omega
      obtain ⟨rfl, rfl, rfl⟩ : y' = y ∧ m' = m + 1 ∧ d' = 0 :=
        h'.unique (by omega) (by omega) (by omega)
      interval_cases m <;> rfl

/-- After the year 9999 come years of more digits. -/
theorem lt_year_of_lt {n : Nat} (h : lastShortDay < n) : 9999 < (ofDay n).year := by
  have hfirst : (ofDay (lastShortDay + 1)).year = 10000 := by decide +kernel
  rcases Nat.eq_or_lt_of_le (Nat.succ_le_of_lt h) with heq | hlt
  · rw [← heq, hfirst]
    decide
  · have hle : (ofDay (lastShortDay + 1)).year ≤ (ofDay n).year := by
      rcases ofDay_order hlt with hyear | ⟨hyear, -⟩
      · exact Nat.le_of_lt hyear
      · exact Nat.le_of_eq hyear
    omega

/-! ## Days before 1970 -/

/-- The same day of a later year. -/
def addYears (d : Date) (years : Nat) : Date := ⟨d.year + years, d.month, d.day⟩

/-- The same day of an earlier year. -/
def subYears (d : Date) (years : Nat) : Date := ⟨d.year - years, d.month, d.day⟩

theorem subYears_addYears (d : Date) (years : Nat) : (d.addYears years).subYears years = d := by
  simp [addYears, subYears]

theorem addYears_subYears {d : Date} {years : Nat} (h : years ≤ d.year) :
    (d.subYears years).addYears years = d := by
  simp [addYears, subYears, Nat.sub_add_cancel h]

/-- A cycle later it is the same day, 400 years on. -/
theorem ofDay_add_cycle (n : Nat) : ofDay (n + cycleDays) = (ofDay n).addYears 400 := by
  have hz : n + cycleDays + epochShift = n + epochShift + cycleDays := by omega
  have hcycle : (n + epochShift + cycleDays) / cycleDays = (n + epochShift) / cycleDays + 1 :=
    Nat.add_div_right _ (by decide)
  have hyears : ((n + epochShift) / cycleDays + 1) * 400
      = (n + epochShift) / cycleDays * 400 + 400 := Nat.succ_mul _ _
  simp only [addYears, ofDay, hz, hcycle, hyears, Nat.add_mod_right, ← Nat.add_assoc]
  split_ifs
  all_goals simp only [Nat.add_right_comm _ 400 1]

/-- Of dates 400 years apart the calendar has both or none. -/
theorem isValid_addYears (d : Date) : (d.addYears 400).isValid = d.isValid := by
  have hlength : monthLength (d.year + 400) d.month = monthLength d.year d.month := by
    unfold monthLength
    rw [isLeap_add_cycle]
  unfold isValid addYears
  rw [hlength]

theorem toDay_addYears (d : Date) : (d.addYears 400).toDay = d.toDay + cycleDays := by
  have hcycle : ∀ y, (y + 400) / 400 = y / 400 + 1 := fun y => by omega
  have hin : ∀ y, (y + 400) % 400 = y % 400 := fun y => by omega
  have hshift : d.year + 400 + 399 = d.year + 399 + 400 := by omega
  unfold toDay addYears cycleDays
  by_cases hmonth : d.month ≤ 2
  · simp only [hmonth, if_true, hshift, hcycle, hin]
    omega
  · simp only [hmonth, if_false, hcycle, hin]
    omega

/-- The date of a day that lies up to a cycle before 1970. -/
def onDay (day : Int) : Date := (ofDay (day + cycleDays).toNat).subYears 400

example : onDay (-1) = ⟨1969, 12, 31⟩ := by decide +kernel

theorem onDay_natCast (n : Nat) : onDay n = ofDay n := by
  have hday : ((n : Int) + cycleDays).toNat = n + cycleDays := by
    rw [← Int.natCast_add, Int.toNat_natCast]
  rw [onDay, hday, ofDay_add_cycle, subYears_addYears]

theorem le_year_ofDay (n : Nat) : 400 ≤ (ofDay n).year := by
  obtain ⟨y, m, d, h⟩ := exists_march n
  have hin := h.inYear
  have hstart : yearStart 400 ≤ epochShift := by decide
  have hyear : 400 ≤ y := Nat.le_of_not_lt fun hy => by
    have hmono : yearStart (y + 1) ≤ yearStart 400 := yearStart_mono hy
    omega
  rw [h.date]
  dsimp only
  split <;> omega

/-- A day's date is that of the day a cycle later, 400 years back. -/
theorem onDay_addYears (day : Int) :
    (onDay day).addYears 400 = ofDay (day + cycleDays).toNat :=
  addYears_subYears (le_year_ofDay _)

theorem isValid_onDay (day : Int) : (onDay day).isValid = true := by
  rw [← isValid_addYears, onDay_addYears]
  exact isValid_ofDay _

theorem toDay_onDay {day : Int} (h : -(cycleDays : Int) ≤ day) : (onDay day).toDay = day := by
  have hshifted := toDay_addYears (onDay day)
  rw [onDay_addYears, toDay_ofDay, Int.toNat_of_nonneg (by omega)] at hshifted
  omega

end Replica.Date
