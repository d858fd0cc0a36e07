/-
Replica.Proofs.Time.TextReading — a time is read back from its text.

Each part of the text of a time is read back as what was written: numbers of a fixed width
(`digits_padded`), the date (`date_written`), the time of day with its fraction
(`timeOfDay_written`) and the offset (`offset_text`). The date counts as its day, so the whole
text is read as the milliseconds since 1970 less the offset (`millis_written`).

`ZoneOffset.textOf` writes a time as the clocks of a place show it. All texts of one time are
read as that time as long as the year has four digits; from the year 10000 on a text starts
with a plus sign and is not read (`text_faithful`).
-/
import Replica.Proofs.Time.DayCount
import Replica.Proofs.Time.TextOrder
import Replica.Proofs.Text.ByteOrder
import Replica.Proofs.Text.Integer

namespace Replica

/-! ## Texts of times at a place -/

/-- A date and a time of day in milliseconds, as they are written. -/
def DateTime.written (date : Date) (time : Nat) : List Char :=
  Timestamp.yearText date.year ++ '-' :: Timestamp.padded 2 date.month
    ++ '-' :: Timestamp.padded 2 date.day ++ 'T' :: Timestamp.padded 2 (time / 3600000)
    ++ ':' :: Timestamp.padded 2 (time / 60000 % 60)
    ++ ':' :: Timestamp.padded 2 (time / 1000 % 60) ++ '.' :: Timestamp.padded 3 (time % 1000)

/-- How far the clocks of a place are ahead of Coordinated Universal Time, or behind it. -/
structure ZoneOffset where
  behind : Bool
  minutes : Nat
  withinDay : minutes < 24 * 60

namespace ZoneOffset

/-- The offset in minutes, negative for clocks that are behind. -/
def shift (z : ZoneOffset) : Int := if z.behind then -z.minutes else z.minutes

/-- A sign, hours, a colon and minutes. -/
def text (z : ZoneOffset) : List Char :=
  (if z.behind then '-' else '+') :: Timestamp.padded 2 (z.minutes / 60)
    ++ ':' :: Timestamp.padded 2 (z.minutes % 60)

/-- What the clocks show, in milliseconds since the start of 1970 on them. -/
def clock (z : ZoneOffset) (t : Timestamp) : Int := t.millis + z.shift * 60000

/-- The date on the clocks. -/
def date (z : ZoneOffset) (t : Timestamp) : Date := .onDay (z.clock t / 86400000)

/-- A time as the clocks show it, with their offset. -/
def textOf (z : ZoneOffset) (t : Timestamp) : String :=
  String.ofList (DateTime.written (z.date t) (z.clock t % 86400000).toNat ++ z.text)

/-- From 1970 on the clocks show the date and time of day that the text of a time has. -/
theorem textOf_eq {z : ZoneOffset} {t : Timestamp} (h : 0 ≤ z.clock t) :
    z.textOf t = String.ofList (Timestamp.localText (z.clock t).toNat ++ z.text) := by
  obtain ⟨ms, hms⟩ := Int.eq_ofNat_of_zero_le h
  have hdate : z.date t = Date.ofDay (ms / 86400000) := by
    rw [date, hms, ← Date.onDay_natCast]
    rfl
  have htime : (z.clock t % 86400000).toNat = ms % 86400000 := by omega
  rw [textOf, hdate, htime, hms, Int.toNat_natCast]
  rfl

end ZoneOffset

namespace DateTime

open Timestamp (padded length_padded)

/-! ## Numbers of a fixed width -/

theorem isDigit_padded {w n : Nat} : ∀ c ∈ padded w n, c.isDigit = true := by
  intro c hc
  rcases List.mem_append.1 hc with hzero | hdigit
  · rw [List.eq_of_mem_replicate hzero]
    rfl
  · exact Nat.isDigit_of_mem_toDigits (by decide) (by decide) hdigit

theorem ofDigitChars_padded (w n : Nat) : Nat.ofDigitChars 10 (padded w n) 0 = n := by
  rw [padded, Nat.ofDigitChars_append, Nat.ofDigitChars_replicate_zero, Nat.mul_zero,
    Nat.ofDigitChars_ten_toDigits]

theorem digits_eq : ∀ (cs : List Char) (value : Nat) (rest : List Char),
    (∀ c ∈ cs, c.isDigit = true) →
      digits cs.length value (cs ++ rest) = .ok (Nat.ofDigitChars 10 cs value, rest)
  | [], _, _, _ => rfl
  | c :: cs, value, rest, h => by
    have hc := Text.digitValue?_isDigit (h c (List.mem_cons_self ..))
    have ih := digits_eq cs (10 * value + (c.toNat - '0'.toNat)) rest
      fun d hd => h d (List.mem_cons_of_mem _ hd)
    rw [List.length_cons, List.cons_append, digits, hc, Nat.ofDigitChars_cons]
    simpa only [Nat.mul_comm] using ih

/-- A number that fits its width is read back. -/
theorem digits_padded {w n : Nat} (hw : 0 < w) (h : n < 10 ^ w) (rest : List Char) :
    digits w 0 (padded w n ++ rest) = .ok (n, rest) := by
  have hread := digits_eq (padded w n) 0 rest isDigit_padded
  rwa [length_padded hw h, ofDigitChars_padded] at hread

/-! ## Date and time of day -/

theorem date_written {d : Date} (hvalid : d.isValid = true) (hyear : d.year ≤ 9999)
    (rest : List Char) :
    date (padded 4 d.year ++ '-' :: (padded 2 d.month ++ '-' :: (padded 2 d.day ++ rest)))
      = .ok (d, rest) := by
  obtain ⟨hmonth, hday⟩ := Date.bounds_of_isValid hvalid
  simp only [date, bind, Except.bind, mark, List.contains_cons, BEq.rfl, Bool.true_or, if_true,
    digits_padded (show 0 < 4 by decide) (show d.year < 10 ^ 4 by omega),
    digits_padded (show 0 < 2 by decide) (show d.month < 10 ^ 2 by omega),
    digits_padded (show 0 < 2 by decide) (show d.day < 10 ^ 2 by omega), hvalid]
  rfl

theorem fractionNanos_padded {milli : Nat} (h : milli < 1000) :
    fractionNanos (padded 3 milli) = milli * 1000000 := by
  have hfold : ∀ (cs : List Char) (value : Nat),
      cs.foldl (fun n c => n * 10 + (c.toNat - '0'.toNat)) value
        = Nat.ofDigitChars 10 cs value := by
    intro cs value
    simp only [Nat.ofDigitChars_eq_foldl, Nat.mul_comm]
  have hlength : (padded 3 milli).length = 3 := length_padded (by decide) h
  have htake : (padded 3 milli ++ List.replicate 9 '0').take 9
      = padded 3 milli ++ List.replicate 6 '0' := by
    rw [List.take_append, List.take_of_length_le (by omega), hlength, List.take_replicate]
    rfl
  rw [fractionNanos, htake, hfold, Nat.ofDigitChars_append, ofDigitChars_padded,
    Nat.ofDigitChars_replicate_zero, Nat.mul_comm]

/-- A fraction ends where no digit follows. -/
theorem fraction_written {milli : Nat} (h : milli < 1000) {rest : List Char}
    (hrest : ∀ c ∈ rest.head?, c.isDigit = false) :
    fraction ('.' :: (padded 3 milli ++ rest)) = .ok (milli * 1000000, rest) := by
  have hdigits := isDigit_padded (w := 3) (n := milli)
  have htake : (padded 3 milli ++ rest).takeWhile Char.isDigit = padded 3 milli := by
    rw [List.takeWhile_append_of_pos hdigits]
    cases rest with
    | nil => simp
    | cons c cs => simp [hrest c rfl]
  have hdrop : (padded 3 milli ++ rest).dropWhile Char.isDigit = rest := by
    rw [List.dropWhile_append_of_pos hdigits]
    cases rest with
    | nil => rfl
    | cons c cs => simp [hrest c rfl]
  obtain ⟨c, cs, hcons⟩ : ∃ c cs, padded 3 milli = c :: cs :=
    List.exists_cons_of_ne_nil (List.ne_nil_of_length_pos (by rw [length_padded] <;> omega))
  have hc : c.isDigit = true := hdigits c (hcons ▸ List.mem_cons_self ..)
  have hpoint : fraction ('.' :: c :: (cs ++ rest))
      = .ok (fractionNanos ((c :: (cs ++ rest)).takeWhile Char.isDigit),
          (c :: (cs ++ rest)).dropWhile Char.isDigit) := if_pos hc
  rwa [← List.cons_append, ← hcons, htake, hdrop, fractionNanos_padded h] at hpoint

theorem timeOfDay_written {time : Nat} (h : time < 86400000) {rest : List Char}
    (hrest : ∀ c ∈ rest.head?, c.isDigit = false) :
    timeOfDay (padded 2 (time / 3600000) ++ ':' :: (padded 2 (time / 60000 % 60) ++ ':' ::
        (padded 2 (time / 1000 % 60) ++ '.' :: (padded 3 (time % 1000) ++ rest))))
      = .ok (time, rest) := by
  have hhour : time / 3600000 < 24 := by omega
  have hminute : time / 60000 % 60 < 60 := by omega
  have hsecond : time / 1000 % 60 < 60 := by omega
  have hmilli : time % 1000 < 1000 := by omega
  have hrange : ¬ (23 < time / 3600000 ∨ 59 < time / 60000 % 60 ∨ 60 < time / 1000 % 60) := by
    omega
  have hsum : (time / 3600000 * 3600 + time / 60000 % 60 * 60 + time / 1000 % 60) * 1000
      + time % 1000 * 1000000 / 1000000 = time := by omega
  simp only [timeOfDay, bind, Except.bind, mark, List.contains_cons, BEq.rfl, Bool.true_or,
    if_true, digits_padded (show 0 < 2 by decide) (show time / 3600000 < 10 ^ 2 by omega),
    digits_padded (show 0 < 2 by decide) (show time / 60000 % 60 < 10 ^ 2 by omega),
    digits_padded (show 0 < 2 by decide) (show time / 1000 % 60 < 10 ^ 2 by omega),
    fraction_written hmilli hrest, if_neg hrange, pure, Except.pure, hsum]

/-! ## Sizes -/

theorem length_le_byteSize : ∀ cs : List Char, cs.length ≤ byteSize cs
  | [] => Nat.le_refl _
  | c :: cs => by
    have ih := length_le_byteSize cs
    have hc := c.utf8Size_pos
    rw [List.length_cons, byteSize]
    omega

theorem le_length_padded (w n : Nat) : w ≤ (padded w n).length := by
  rw [padded, List.length_append, List.length_replicate]
  omega

theorem le_byteSize_padded (w n : Nat) (rest : List Char) : w ≤ byteSize (padded w n ++ rest) := by
  refine Nat.le_trans ?_ (length_le_byteSize _)
  rw [List.length_append]
  exact Nat.le_trans (le_length_padded w n) (Nat.le_add_right _ _)

/-- A date and a time of day are never too short to be read. -/
theorem le_byteSize_written (d : Date) (time : Nat) (zone : List Char) :
    19 ≤ byteSize (written d time ++ zone) := by
  have htwo := le_length_padded 2
  have hmonth := htwo d.month
  have hday := htwo d.day
  have hhour := htwo (time / 3600000)
  have hminute := htwo (time / 60000 % 60)
  have hsecond := htwo (time / 1000 % 60)
  have hmilli := le_length_padded 3 (time % 1000)
  refine Nat.le_trans ?_ (length_le_byteSize _)
  simp only [written, List.length_append, List.length_cons]
  omega

/-! ## Offsets -/

theorem offsetHours_written {hours : Nat} (h : hours < 24) (rest : List Char) :
    offsetHours (padded 2 hours ++ rest) = .ok (hours, rest) := by
  rw [offsetHours, if_neg (Nat.not_lt.2 (le_byteSize_padded 2 hours rest)),
    digits_padded (by decide) (by omega)]

theorem offsetMinutes_written {minutes : Nat} (h : minutes < 60) :
    offsetMinutes (padded 2 minutes) = .ok (minutes, []) := by
  have hsize := le_byteSize_padded 2 minutes []
  have hread := digits_padded (w := 2) (n := minutes) (by decide) (by omega) []
  rw [List.append_nil] at hsize hread
  rw [offsetMinutes, if_neg (Nat.not_lt.2 hsize), hread]
  exact if_neg (by omega)

theorem offset_text (z : ZoneOffset) : offset z.text = .ok (z.shift, []) := by
  have hday := z.withinDay
  have hhours := offsetHours_written (show z.minutes / 60 < 24 by omega)
    (':' :: padded 2 (z.minutes % 60))
  have hminutes := offsetMinutes_written (show z.minutes % 60 < 60 by omega)
  have hsum : ((z.minutes / 60 : Nat) : Int) * 60 + (z.minutes % 60 : Nat) = z.minutes := by omega
  unfold ZoneOffset.text ZoneOffset.shift
  cases z.behind
  all_goals
    simp only [offset, List.cons_append, hhours, hminutes, hsum, bind, Except.bind, pure,
      Except.pure, Char.reduceEq, or_self, true_or, Bool.false_eq_true, if_true, if_false]

/-! ## Whole texts -/

theorem written_long {d : Date} (h : ¬ d.year ≤ 9999) (time : Nat) (zone : List Char) :
    ∃ rest, written d time ++ zone = '+' :: rest := by
  simp only [written, Timestamp.yearText, if_neg h, List.cons_append]
  exact ⟨_, rfl⟩

/-- A date and a time of day with an offset are the time at that place, less the offset. -/
theorem millis_written {d : Date} (hvalid : d.isValid = true) (hyear : d.year ≤ 9999) {time : Nat}
    (htime : time < 86400000) {zone : List Char} (hzone : ∀ c ∈ zone.head?, c.isDigit = false)
    {minutes : Int} (hoffset : offset zone = .ok (minutes, [])) (hday : minutes.natAbs < 24 * 60) :
    millis (written d time ++ zone) = .ok (d.toDay * 86400000 + time - minutes * 60000) := by
  have hwritten : written d time ++ zone = padded 4 d.year ++ '-' :: (padded 2 d.month ++ '-' ::
      (padded 2 d.day ++ 'T' :: (padded 2 (time / 3600000) ++ ':' ::
        (padded 2 (time / 60000 % 60) ++ ':' :: (padded 2 (time / 1000 % 60) ++ '.' ::
          (padded 3 (time % 1000) ++ zone)))))) := by
    simp only [written, Timestamp.yearText, if_pos hyear, List.append_assoc, List.cons_append]
  rw [millis, if_neg (Nat.not_lt.2 (le_byteSize_written d time zone)), hwritten]
  simp only [bind, Except.bind, date_written hvalid hyear, mark, List.contains_cons, BEq.rfl,
    Bool.true_or, if_true, timeOfDay_written htime hzone, hoffset, List.isEmpty_nil, Bool.not_true,
    Bool.false_eq_true, if_false, if_neg (Nat.not_le.2 hday)]
  rfl

end DateTime

namespace Timestamp

open DateTime

/-- A date and a time of day that add up to a time with an offset are read as that time. -/
theorem parse_written {t : Timestamp} {d : Date} (hvalid : d.isValid = true)
    (hyear : d.year ≤ 9999) {time : Nat} (htime : time < 86400000) {zone : List Char}
    (hzone : ∀ c ∈ zone.head?, c.isDigit = false) {minutes : Int}
    (hoffset : offset zone = .ok (minutes, [])) (hday : minutes.natAbs < 24 * 60)
    (htotal : d.toDay * 86400000 + time - minutes * 60000 = t.millis) :
    parse (String.ofList (written d time ++ zone)) = .ok t := by
  have hmillis := millis_written hvalid hyear htime hzone hoffset hday
  rw [htotal] at hmillis
  simp only [parse, String.toList_ofList, hmillis, bind, Except.bind]
  rw [if_neg (by omega)]
  rfl

theorem parse_text {t : Timestamp} (h : t.millis ≤ lastShort) : parse t.text = .ok t := by
  have hmin : min t.millis lastWritten = t.millis := by
    unfold lastShort at h
    unfold lastWritten
    omega
  have hyear := (Date.ofDay_bounds (day_le h)).1
  rw [text, hmin]
  have hzone : ∀ c ∈ ['Z'].head?, c.isDigit = false := by
    rintro c ⟨⟩
    rfl
  have hoffset : offset ['Z'] = .ok (0, []) := rfl
  refine parse_written (Date.isValid_ofDay _) hyear (Nat.mod_lt _ (by decide)) hzone hoffset
    (by decide) ?_
  rw [Date.toDay_ofDay]
  omega

theorem parse_textOf {t : Timestamp} {z : ZoneOffset} (h : (z.date t).year ≤ 9999) :
    parse (z.textOf t) = .ok t := by
  have hday := z.withinDay
  have hshift : z.shift.natAbs < 24 * 60 := by
    unfold ZoneOffset.shift
    split <;> omega
  have hclock : z.clock t = t.millis + z.shift * 60000 := rfl
  have hcount : (Date.onDay (z.clock t / 86400000)).toDay = z.clock t / 86400000 :=
    Date.toDay_onDay (by unfold Date.cycleDays; omega)
  refine parse_written (Date.isValid_onDay _) h ?_ ?_ (offset_text z) hshift ?_
  · omega
  · intro c hc
    have hsign : c = if z.behind then '-' else '+' := (Option.some.inj hc).symm
    rw [hsign]
    split <;> rfl
  · have hdiv := Int.emod_add_mul_ediv (z.clock t) 86400000
    rw [hcount]
    omega

/-- A text with a year of more than four digits starts with a plus sign. -/
theorem parse_long {t : Timestamp} (h : lastShort < t.millis) :
    parse t.text = .error .badCharacter := by
  obtain ⟨ms, hms⟩ : ∃ ms, ms = min t.millis lastWritten := ⟨_, rfl⟩
  have hlate : lastShort < ms := by
    unfold lastShort at h ⊢
    unfold lastWritten at hms
    omega
  have hyear : ¬ (Date.ofDay (ms / 86400000)).year ≤ 9999 := by
    refine Nat.not_le.2 (Date.lt_year_of_lt ?_)
    unfold lastShort at hlate
    unfold Date.lastShortDay
    omega
  have hlocal : localText ms = written (Date.ofDay (ms / 86400000)) (ms % 86400000) := rfl
  obtain ⟨rest, hrest⟩ := written_long hyear (ms % 86400000) ['Z']
  have hsize := le_byteSize_written (Date.ofDay (ms / 86400000)) (ms % 86400000) ['Z']
  rw [hrest] at hsize
  rw [parse, text, String.toList_ofList, ← hms, hlocal, hrest, DateTime.millis,
    if_neg (Nat.not_lt.2 hsize)]
  rfl

/-- **Texts of times are faithful.** Up to the year 9999 a time is read back from its text, and
texts are in the order of times byte by byte. The date and time of day that the clocks of any
place show are read as the time, too, as long as their year has four digits. The text of a later
time is not read. -/
theorem text_faithful :
    (∀ t : Timestamp, t.millis ≤ lastShort → parse t.text = .ok t)
    ∧ (∀ a b : Timestamp, a.millis ≤ lastShort → b.millis ≤ lastShort →
        (a.millis < b.millis ↔ Text.bytes a.text < Text.bytes b.text))
    ∧ (∀ (t : Timestamp) (z : ZoneOffset), (z.date t).year ≤ 9999 → parse (z.textOf t) = .ok t)
    ∧ ∀ t : Timestamp, lastShort < t.millis → parse t.text = .error .badCharacter := by
  refine ⟨fun t h => parse_text h, fun a b ha hb => ?_, fun t z h => parse_textOf h,
    fun t h => parse_long h⟩
  rw [Text.bytes_lt_iff, text_lt_iff ha hb]

/-- A quarter to six hours behind, the clocks show the last day of 1969 when 1970 begins. -/
def quarterToSixBehind : ZoneOffset := ⟨true, 345, by decide⟩

/-- The leap day of 2024 and the start of 1970 are read from their texts, the earlier one has
the smaller bytes, and the first day of the year 10000 is not read. -/
theorem leapDay_faithful :
    parse "2024-02-29T12:34:56.789Z" = .ok ⟨1709210096789⟩
      ∧ Text.bytes "1970-01-01T00:00:00.000Z" < Text.bytes "2024-02-29T12:34:56.789Z"
      ∧ parse "1969-12-31T18:15:00.000-05:45" = .ok ⟨0⟩
      ∧ parse "+10000-01-01T00:00:00.000Z" = .error .badCharacter := by
  obtain ⟨hread, horder, hlocal, hlong⟩ := text_faithful
  have hstart : Timestamp.text ⟨0⟩ = "1970-01-01T00:00:00.000Z" := by decide +kernel
  have hleap : Timestamp.text ⟨1709210096789⟩ = "2024-02-29T12:34:56.789Z" := by decide +kernel
  have hbehind : quarterToSixBehind.textOf ⟨0⟩ = "1969-12-31T18:15:00.000-05:45" := by
    decide +kernel
  have hlast : Timestamp.text ⟨253402300800000⟩ = "+10000-01-01T00:00:00.000Z" := by
    decide +kernel
  rw [← hstart, ← hleap, ← hbehind, ← hlast]
  refine ⟨hread _ (by decide), (horder _ _ (by decide) (by decide)).1 (by decide),
    hlocal _ _ (by decide +kernel), hlong _ (by decide)⟩

end Timestamp

end Replica
