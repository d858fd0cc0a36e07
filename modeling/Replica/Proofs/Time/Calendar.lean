/-
Replica.Proofs.Time.Calendar — later days have later dates.

The date of a day is computed by divisions whose quotients hide what they count. `March`
says it the other way round: a day is the start of a year counted from March, plus the
start of a month in that year, plus a day of that month. These three numbers order days
(`March.order`), and year, month and day of the calendar are in the same order
(`ofDay_order`).
-/
import Replica.Time.Calendar

namespace Replica.Date

/-! ## Years of a cycle -/

/-- The days before a year of a cycle. -/
def cycleYearStart (y : Nat) : Nat := 365 * y + y / 4 - y / 100

/-- The day of a cycle, stretched so that every year has 365 days. -/
def stretched (d : Nat) : Nat := d - d / 1460 + d / 36524 - d / 146096

theorem stretched_step (d : Nat) : stretched d ≤ stretched (d + 1) := by
  have h : d / 146096 = d / 36524 / 4 := (Nat.div_div_eq_div_mul d 36524 4).symm
  have h' : (d + 1) / 146096 = (d + 1) / 36524 / 4 :=
    (Nat.div_div_eq_div_mul (d + 1) 36524 4).symm
  have hfours : (d + 1) / 1460 ≤ d / 1460 + 1 := by omega
  have hcenturies : d / 36524 ≤ (d + 1) / 36524 := by omega
  simp only [stretched, h, h']
  omega

theorem stretched_mono {d d' : Nat} (h : d ≤ d') : stretched d ≤ stretched d' := by
  induction h with
  | refl => exact Nat.le_refl _
  | step _ ih => exact Nat.le_trans ih (stretched_step _)

theorem stretched_bounds : ∀ y < 400,
    365 * y ≤ stretched (cycleYearStart y)
      ∧ stretched (cycleYearStart (y + 1) - 1) < 365 * (y + 1)
      ∧ cycleYearStart y < cycleYearStart (y + 1) := by
  decide +kernel

/-- The quotient that gives the year of a cycle counts years. -/
theorem cycleYear_bounds {d y : Nat} (hd : d < cycleDays) (hy : y = stretched d / 365) :
    y < 400 ∧ cycleYearStart y ≤ d ∧ (y = 399 ∨ d < cycleYearStart (y + 1)) := by
  have hlast : stretched d ≤ stretched 146096 := stretched_mono (Nat.le_of_lt_succ hd)
  have hvalue : stretched 146096 = 145999 := by decide +kernel
  have hlt : y < 400 := by omega
  refine ⟨hlt, ?_, ?_⟩
  · apply Nat.le_of_not_lt
    intro hbefore
    cases y with
    | zero => simp [cycleYearStart] at hbefore
    | succ y =>
      have hmono := stretched_mono (Nat.le_sub_one_of_lt hbefore)
      have hbound := (stretched_bounds y (by omega)).2.1
      omega
  · by_cases hlast : y = 399
    · exact .inl hlast
    · refine .inr (Nat.lt_of_not_le fun hafter => ?_)
      have hmono := stretched_mono hafter
      have hbound := (stretched_bounds (y + 1) (by omega)).1
      omega

/-! ## Days counted from March -/

/-- The days before a year counted from March. -/
def yearStart (y : Nat) : Nat := 365 * y + y / 4 - y / 100 + y / 400

/-- The days of a year before a month; month 0 is March. -/
def monthStart (m : Nat) : Nat := (153 * m + 2) / 5

/-- Day `n` is day `d` of month `m` of year `y`, all counted from zero and from March. -/
structure March (n y m d : Nat) : Prop where
  total : n + epochShift = yearStart y + monthStart m + d
  inMonth : monthStart m + d < monthStart (m + 1)
  inYear : n + epochShift < yearStart (y + 1)
  month : m < 12
  date : ofDay n = ⟨if m < 10 then y else y + 1, if m < 10 then m + 3 else m - 9, d + 1⟩

theorem yearStart_mono {y y' : Nat} (h : y ≤ y') : yearStart y ≤ yearStart y' := by
  induction h with
  | refl => exact Nat.le_refl _
  | @step y' _ ih =>
    have hfours : y' / 4 ≤ (y' + 1) / 4 := by omega
    have hcenturies : (y' + 1) / 100 ≤ y' / 100 + 1 := by omega
    have hcycles : y' / 400 ≤ (y' + 1) / 400 := by omega
    unfold yearStart at ih ⊢
    omega

theorem monthStart_mono {m m' : Nat} (h : m ≤ m') : monthStart m ≤ monthStart m' := by
  unfold monthStart
  omega

theorem yearStart_add (cycle y : Nat) (hy : y < 400) :
    yearStart (y + cycle * 400) = cycleDays * cycle + cycleYearStart y := by
  simp only [yearStart, cycleYearStart, cycleDays]
  omega

/-- A day comes before the year after the one that its place in the cycle gives. -/
theorem lt_yearStart {z y : Nat} (hlt : y < 400)
    (hend : y = 399 ∨ z % cycleDays < cycleYearStart (y + 1)) :
    z < yearStart (y + z / cycleDays * 400 + 1) := by
  have hdiv := Nat.div_add_mod z cycleDays
  have hmod := Nat.mod_lt z (show 0 < cycleDays by decide)
  rw [Nat.add_right_comm]
  by_cases hlast : y = 399
  · subst hlast
    have hnext : yearStart (399 + 1 + z / cycleDays * 400) = cycleDays * (z / cycleDays + 1) := by
      simp only [yearStart, cycleDays]
      omega
    rw [hnext, Nat.mul_add]
    omega
  · have hbefore := hend.resolve_left hlast
    rw [yearStart_add _ _ (by omega)]
    omega

/-- The date of a day by its place in the cycle. -/
theorem ofDay_eq (n : Nat) {y doy : Nat}
    (hy : y = stretched ((n + epochShift) % cycleDays) / 365)
    (hdoy : doy = (n + epochShift) % cycleDays - cycleYearStart y) (hlen : doy < 366) :
    ofDay n =
      ⟨if (5 * doy + 2) / 153 < 10 then y + (n + epochShift) / cycleDays * 400
          else y + (n + epochShift) / cycleDays * 400 + 1,
        if (5 * doy + 2) / 153 < 10 then (5 * doy + 2) / 153 + 3 else (5 * doy + 2) / 153 - 9,
        doy - monthStart ((5 * doy + 2) / 153) + 1⟩ := by
  have hof : ofDay n = (
      let doy := (n + epochShift) % cycleDays - cycleYearStart y
      let m := (5 * doy + 2) / 153
      let month := if m < 10 then m + 3 else m - 9
      let year := y + (n + epochShift) / cycleDays * 400
      ⟨if month ≤ 2 then year + 1 else year, month, doy - monthStart m + 1⟩ : Date) := by
    rw [hy]
    rfl
  rw [hof, ← hdoy]
  by_cases hm : (5 * doy + 2) / 153 < 10
  · simp only [hm, if_true]
    rw [if_neg (by omega)]
  · simp only [hm, if_false]
    rw [if_pos (by omega)]

theorem exists_march (n : Nat) : ∃ y m d, March n y m d := by
  obtain ⟨z, hz⟩ : ∃ z, z = n + epochShift := ⟨_, rfl⟩
  obtain ⟨y, hy⟩ : ∃ y, y = stretched (z % cycleDays) / 365 := ⟨_, rfl⟩
  have hmod : z % cycleDays < cycleDays := Nat.mod_lt z (by decide)
  obtain ⟨hlt, hstart, hend⟩ := cycleYear_bounds hmod hy
  obtain ⟨doy, hdoy⟩ : ∃ doy, doy = z % cycleDays - cycleYearStart y := ⟨_, rfl⟩
  have hlen : doy < 366 := by
    rcases hend with rfl | hend
    · have hlast : cycleYearStart 399 = 145731 := by decide
      have hdays : cycleDays = 146097 := rfl
      omega
    · unfold cycleYearStart at hdoy hend
      omega
  have htotal : z = yearStart (y + z / cycleDays * 400) + doy := by
    have hdiv := Nat.div_add_mod z cycleDays
    rw [yearStart_add _ _ hlt]
    omega
  have hdate := ofDay_eq n (hz ▸ hy) (hz ▸ hdoy) hlen
  rw [← hz] at hdate
  -- Months from March have 31 and 30 days by turns, in groups of 153 for five months.
  refine ⟨y + z / cycleDays * 400, (5 * doy + 2) / 153, doy - monthStart ((5 * doy + 2) / 153),
    ?_, ?_, hz ▸ lt_yearStart hlt hend, by omega, hdate⟩
  · rw [← hz]
    unfold monthStart
    omega
  · unfold monthStart
    omega

/-! ## The order of dates -/

/-- Days are ordered by year, month and day counted from March. -/
theorem March.order {n y m d n' y' m' d' : Nat} (h : March n y m d) (h' : March n' y' m' d')
    (hlt : n < n') : y < y' ∨ y = y' ∧ (m < m' ∨ m = m' ∧ d < d') := by
  have htotal := h.total
  have htotal' := h'.total
  rcases Nat.lt_trichotomy y y' with hy | rfl | hy
  · exact .inl hy
  · refine .inr ⟨rfl, ?_⟩
    rcases Nat.lt_trichotomy m m' with hm | rfl | hm
    · exact .inl hm
    · exact .inr ⟨rfl, by omega⟩
    · have hmono : monthStart (m' + 1) ≤ monthStart m := monthStart_mono hm
      have hin := h'.inMonth
      omega
  · have hmono : yearStart (y' + 1) ≤ yearStart y := yearStart_mono hy
    have hin := h'.inYear
    omega

theorem ofDay_order {n n' : Nat} (hlt : n < n') :
    (ofDay n).year < (ofDay n').year ∨ (ofDay n).year = (ofDay n').year ∧
      ((ofDay n).month < (ofDay n').month ∨ (ofDay n).month = (ofDay n').month ∧
        (ofDay n).day < (ofDay n').day) := by
  obtain ⟨y, m, d, h⟩ := exists_march n
  obtain ⟨y', m', d', h'⟩ := exists_march n'
  have hm := h.month
  have hm' := h'.month
  have horder := h.order h' hlt
  rw [h.date, h'.date]
  dsimp only
  split <;> split <;> omega

/-- The last day of the year 9999. -/
def lastShortDay : Nat := 2932896

/-- The numbers of a date up to the year 9999 have at most four and two digits. -/
theorem ofDay_bounds {n : Nat} (hn : n ≤ lastShortDay) :
    (ofDay n).year ≤ 9999 ∧ (ofDay n).month ≤ 12 ∧ (ofDay n).day ≤ 31 := by
  obtain ⟨y, m, d, h⟩ := exists_march n
  have hm := h.month
  have htotal := h.total
  have hlast : lastShortDay + epochShift < yearStart 9999 + monthStart 10 := by decide
  have hin := h.inMonth
  rw [h.date]
  refine ⟨?_, by dsimp only; split <;> omega, ?_⟩
  · rcases Nat.lt_trichotomy y 9999 with hy | rfl | hy
    · dsimp only
      split <;> omega
    · have hmonth : m < 10 := Nat.lt_of_not_le fun h10 => by
        have hmono := monthStart_mono h10
        omega
      simp [hmonth]
    · have hmono : yearStart 10000 ≤ yearStart y := yearStart_mono hy
      have hyear : yearStart 9999 + monthStart 10 ≤ yearStart 10000 := by decide
      omega
  · unfold monthStart at hin
    dsimp only
    omega

end Replica.Date
