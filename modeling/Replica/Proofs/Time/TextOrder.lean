/-
Replica.Proofs.Time.TextOrder — the texts of times are in the order of the times.

Up to the year 9999 the text of a time is a row of numbers of fixed widths with fixed
characters between them (`localText_eq_render`), so texts compare as the rows of numbers
do. The numbers of a later time come later, date before time of day (`parts_lt`). Hence
comparing texts by their characters compares times (`text_lt_iff`).
-/
import Replica.Proofs.Time.Calendar
import Replica.Time.DateTime
import Mathlib.Algebra.Group.Nat.Defs

namespace Replica.Timestamp

/-! ## Numbers of a fixed width -/

theorem digitChar_lt {a b : Nat} (hb : b < 10) (h : a < b) : Nat.digitChar a < Nat.digitChar b := by
  have ha := Nat.toNat_digitChar_of_lt_ten (Nat.lt_trans h hb)
  have hb' := Nat.toNat_digitChar_of_lt_ten hb
  have hnat : (Nat.digitChar a).toNat < (Nat.digitChar b).toNat := by omega
  exact Char.lt_def.2 (UInt32.lt_iff_toNat_lt.2 hnat)

theorem padded_succ {w : Nat} (hw : 0 < w) (n : Nat) :
    padded (w + 1) n = padded w (n / 10) ++ [Nat.digitChar (n % 10)] := by
  by_cases h : 10 ≤ n
  · simp only [padded, Nat.toDigits_of_base_le (by decide) h, List.length_append,
      List.length_singleton]
    rw [Nat.add_sub_add_right, List.append_assoc]
  · have hdiv : n / 10 = 0 := by omega
    have hmod : n % 10 = n := by omega
    simp only [padded, hdiv, hmod, Nat.toDigits_of_lt_base (Nat.lt_of_not_le h), Nat.toDigits_zero,
      List.length_singleton, Nat.add_sub_cancel]
    obtain ⟨k, rfl⟩ : ∃ k, w = k + 1 := ⟨w - 1, by omega⟩
    rw [Nat.add_sub_cancel, List.replicate_succ']

theorem length_padded {w n : Nat} (hw : 0 < w) (h : n < 10 ^ w) : (padded w n).length = w := by
  have hle := (Nat.length_toDigits_le_iff (by decide) hw).2 h
  rw [padded, List.length_append, List.length_replicate]
  omega

/-- What stands in front decides. -/
theorem append_lt_append : ∀ {as bs : List Char}, as.length = bs.length → as < bs →
    ∀ xs ys, as ++ xs < bs ++ ys
  | [], [], _, h, _, _ => absurd h (List.lt_irrefl _)
  | a :: as, b :: bs, hlen, h, xs, ys => by
    rw [List.cons_append, List.cons_append, List.cons_lt_cons_iff]
    rcases List.cons_lt_cons_iff.1 h with hhead | ⟨rfl, htail⟩
    · exact .inl hhead
    · exact .inr ⟨rfl, append_lt_append (Nat.succ.inj hlen) htail xs ys⟩

theorem padded_lt {w a b : Nat} (hb : b < 10 ^ (w + 1)) (h : a < b) :
    padded (w + 1) a < padded (w + 1) b := by
  induction w generalizing a b with
  | zero =>
    have hb' : b < 10 := by simpa using hb
    have hone : ∀ n, n < 10 → padded 1 n = [Nat.digitChar n] := fun n hn => by
      simp [padded, Nat.toDigits_of_lt_base hn]
    rw [hone a (by omega), hone b hb', List.cons_lt_cons_iff]
    exact .inl (digitChar_lt hb' h)
  | succ w ih =>
    have hpow : 10 ^ (w + 1 + 1) = 10 ^ (w + 1) * 10 := rfl
    have htens : b / 10 < 10 ^ (w + 1) := by omega
    rw [padded_succ (Nat.succ_pos w), padded_succ (Nat.succ_pos w)]
    by_cases hten : a / 10 < b / 10
    · refine append_lt_append ?_ (ih htens hten) _ _
      rw [length_padded (Nat.succ_pos w) htens, length_padded (Nat.succ_pos w) (by omega)]
    · have hsame : a / 10 = b / 10 := by omega
      rw [hsame]
      refine List.append_left_lt ?_
      rw [List.cons_lt_cons_iff]
      exact .inl (digitChar_lt (by omega) (by omega))

/-! ## Rows of numbers -/

/-- Numbers written with given widths, each followed by a given character. -/
def render : List (Nat × Char) → List Nat → List Char
  | (w, mark) :: layout, n :: rest => padded (w + 1) n ++ mark :: render layout rest
  | _, _ => []

/-- Every number fits its width. -/
def Fits : List (Nat × Char) → List Nat → Prop
  | (w, _) :: layout, n :: rest => n < 10 ^ (w + 1) ∧ Fits layout rest
  | [], [] => True
  | _, _ => False

theorem render_lt : ∀ {layout : List (Nat × Char)} {as bs : List Nat}, Fits layout as →
    Fits layout bs → as < bs → render layout as < render layout bs
  | [], [], [], _, _, h => absurd h (List.lt_irrefl _)
  | (w, mark) :: layout, a :: as, b :: bs, ⟨ha, has⟩, ⟨hb, hbs⟩, h => by
    rw [render, render]
    rcases List.cons_lt_cons_iff.1 h with hhead | ⟨rfl, htail⟩
    · refine append_lt_append ?_ (padded_lt hb hhead) _ _
      rw [length_padded (Nat.succ_pos w) ha, length_padded (Nat.succ_pos w) hb]
    · refine List.append_left_lt ?_
      rw [List.cons_lt_cons_iff]
      exact .inr ⟨rfl, render_lt has hbs htail⟩

/-! ## The parts of a time -/

/-- The last millisecond of the year 9999. -/
def lastShort : Nat := 253402300799999

/-- The widths, less one, of the numbers in the text of a time, and what follows each. -/
def layout : List (Nat × Char) :=
  [(3, '-'), (1, '-'), (1, 'T'), (1, ':'), (1, ':'), (1, '.'), (2, 'Z')]

/-- Date and time of day as a row of numbers. -/
def parts (ms : Nat) : List Nat :=
  let date := Date.ofDay (ms / 86400000)
  let rest := ms % 86400000
  [date.year, date.month, date.day, rest / 3600000, rest / 60000 % 60, rest / 1000 % 60, rest % 1000]

theorem day_le {ms : Nat} (h : ms ≤ lastShort) : ms / 86400000 ≤ Date.lastShortDay := by
  unfold lastShort at h
  unfold Date.lastShortDay
  omega

theorem fits_parts {ms : Nat} (h : ms ≤ lastShort) : Fits layout (parts ms) := by
  obtain ⟨hyear, hmonth, hday⟩ := Date.ofDay_bounds (day_le h)
  simp only [layout, parts, Fits, and_true]
  refine ⟨?_, ?_, ?_, ?_, ?_, ?_, ?_⟩ <;> omega

theorem render_layout (year month day hour minute second milli : Nat) :
    render layout [year, month, day, hour, minute, second, milli]
      = padded 4 year ++ '-' :: padded 2 month ++ '-' :: padded 2 day ++ 'T' :: padded 2 hour
        ++ ':' :: padded 2 minute ++ ':' :: padded 2 second ++ '.' :: padded 3 milli ++ ['Z'] := by
  simp only [layout, render, List.append_assoc, List.cons_append]

/-- The text of a time is its row of numbers. -/
theorem localText_eq_render {ms : Nat} (h : ms ≤ lastShort) :
    localText ms ++ ['Z'] = render layout (parts ms) := by
  have hyear := (Date.ofDay_bounds (day_le h)).1
  rw [localText, parts, render_layout, yearText, if_pos hyear]

theorem parts_lt {a b : Nat} (h : a < b) : parts a < parts b := by
  simp only [parts, List.cons_lt_cons_iff, List.lt_irrefl, and_false, or_false]
  by_cases hday : a / 86400000 < b / 86400000
  · rcases Date.ofDay_order hday with hyear | ⟨hyear, hmonth | ⟨hmonth, hday⟩⟩
    · exact .inl hyear
    · exact .inr ⟨hyear, .inl hmonth⟩
    · exact .inr ⟨hyear, .inr ⟨hmonth, .inl hday⟩⟩
  · have hsame : a / 86400000 = b / 86400000 := by omega
    rw [hsame]
    refine .inr ⟨rfl, .inr ⟨rfl, .inr ⟨rfl, ?_⟩⟩⟩
    omega

/-! ## Texts -/

theorem text_eq {t : Timestamp} (h : t.millis ≤ lastShort) :
    t.text = String.ofList (render layout (parts t.millis)) := by
  have hmin : min t.millis lastWritten = t.millis := by
    unfold lastShort at h
    unfold lastWritten
    omega
  rw [text, hmin, localText_eq_render h]

theorem text_lt {a b : Timestamp} (hb : b.millis ≤ lastShort) (h : a.millis < b.millis) :
    a.text < b.text := by
  have ha : a.millis ≤ lastShort := Nat.le_of_lt (Nat.lt_of_lt_of_le h hb)
  rw [text_eq ha, text_eq hb, String.lt_iff, String.toList_ofList, String.toList_ofList]
  exact render_lt (fits_parts ha) (fits_parts hb) (parts_lt h)

/-- Up to the year 9999 the order of texts is the order of times. -/
theorem text_lt_iff {a b : Timestamp} (ha : a.millis ≤ lastShort) (hb : b.millis ≤ lastShort) :
    a.text < b.text ↔ a.millis < b.millis := by
  refine ⟨fun h => Nat.lt_of_not_le fun hle => ?_, text_lt hb⟩
  rcases Nat.lt_or_eq_of_le hle with hlt | heq
  · exact String.lt_irrefl _ (String.lt_trans h (text_lt ha hlt))
  · have hsame : a = b := congrArg Timestamp.mk heq.symm
    exact String.lt_irrefl _ (hsame ▸ h)

end Replica.Timestamp
