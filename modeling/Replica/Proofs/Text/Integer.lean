/-
Replica.Proofs.Text.Integer — a number is read back from its own decimal text.

Reading stops at the first value beyond its limit. Values only grow on the way, so a text
whose value is within the limit is read to its end (`readDigits_eq`), and the text of a
number gives the number back (`readUnsigned64_toString`, `readSigned64_toString`).
-/
import Replica.Text.Integer

namespace Replica.Text

/-! ## Digits -/

theorem digitValue?_isDigit {c : Char} (h : c.isDigit = true) :
    digitValue? c = some (c.toNat - '0'.toNat) := by
  rw [digitValue?, if_pos h]

theorem le_ofDigitChars (cs : List Char) (value : Nat) : value ≤ Nat.ofDigitChars 10 cs value := by
  rw [Nat.ofDigitChars_eq_ofDigitChars_zero]
  have hpow : 1 ≤ 10 ^ cs.length := Nat.one_le_pow _ _ (by decide)
  have hmul : 1 * value ≤ 10 ^ cs.length * value := Nat.mul_le_mul_right value hpow
  omega

theorem readDigits_eq (limit : Nat) (beyond : IntegerFault) :
    ∀ (cs : List Char) (value : Nat), (∀ c ∈ cs, c.isDigit = true) →
      Nat.ofDigitChars 10 cs value ≤ limit →
      readDigits limit beyond value cs = .ok (Nat.ofDigitChars 10 cs value)
  | [], value, _, _ => by rw [readDigits, Nat.ofDigitChars_nil]
  | c :: cs, value, hdigits, hlimit => by
    have hstep : value * 10 + (c.toNat - '0'.toNat) = 10 * value + (c.toNat - '0'.toNat) := by
      omega
    rw [Nat.ofDigitChars_cons] at hlimit ⊢
    have hnext := Nat.le_trans (le_ofDigitChars cs _) hlimit
    rw [readDigits, digitValue?_isDigit (hdigits c (List.mem_cons_self ..))]
    simp only [hstep]
    rw [if_neg (by omega)]
    exact readDigits_eq limit beyond cs _ (fun d hd => hdigits d (List.mem_cons_of_mem _ hd)) hlimit

/-! ## Whole numbers -/

/-- A text that starts with a digit is read as digits. -/
theorem readInteger_digits {low high : Nat} {c : Char} {cs : List Char} (hc : c.isDigit = true) :
    readInteger low high (c :: cs) = (readDigits high .tooLarge 0 (c :: cs)).map Int.ofNat := by
  have hplus : c ≠ '+' := fun e => by simp [e] at hc
  have hminus : c ≠ '-' := fun e => by simp [e] at hc
  unfold readInteger
  split <;> simp_all

/-- The text of a number is read back within a bound on it. -/
theorem readDigits_toDigits {limit n : Nat} (h : n ≤ limit) (beyond : IntegerFault) :
    readDigits limit beyond 0 (Nat.toDigits 10 n) = .ok n := by
  have hdigits : ∀ c ∈ Nat.toDigits 10 n, c.isDigit = true := fun c hc =>
    Nat.isDigit_of_mem_toDigits (by decide) (by decide) hc
  have hread := readDigits_eq limit beyond (Nat.toDigits 10 n) 0 hdigits
    (by rw [Nat.ofDigitChars_ten_toDigits]; exact h)
  rwa [Nat.ofDigitChars_ten_toDigits] at hread

theorem toList_toString (n : Nat) : (toString n).toList = Nat.toDigits 10 n := by
  rw [Nat.toString_eq_repr, Nat.toList_repr]

theorem readInteger_toString {low high n : Nat} (h : n ≤ high) :
    readInteger low high (toString n).toList = .ok (Int.ofNat n) := by
  have hread := readDigits_toDigits h .tooLarge
  rw [toList_toString]
  cases hcons : Nat.toDigits 10 n with
  | nil => exact absurd hcons Nat.toDigits_ne_nil
  | cons c cs =>
    have hdigit : c.isDigit = true :=
      Nat.isDigit_of_mem_toDigits (by decide) (by decide) (hcons ▸ List.mem_cons_self ..)
    rw [hcons] at hread
    rw [readInteger_digits hdigit, hread]
    rfl

/-- A 64-bit number is read back from its text. -/
theorem readUnsigned64_toString {n : Nat} (h : n ≤ maxUnsigned64) :
    readUnsigned64 (toString n) = .ok n := by
  rw [readUnsigned64, readInteger_toString h]
  rfl

/-- A text with a minus sign is read as the digits behind it. -/
theorem readInteger_minus {low high : Nat} (hlow : low ≠ 0) {cs : List Char} (hcs : cs ≠ []) :
    readInteger low high ('-' :: cs) = (readDigits low .tooSmall 0 cs).map fun n => -(n : Int) := by
  cases cs with
  | nil => exact absurd rfl hcs
  | cons c cs => simp [readInteger, hlow]

/-- A signed 64-bit number is read back from its text. -/
theorem readSigned64_toString {n : Int} (hlow : -(maxSigned64 + 1 : Nat) ≤ n)
    (hhigh : n ≤ (maxSigned64 : Nat)) : readSigned64 (toString n) = .ok n := by
  cases n with
  | ofNat n =>
    have htext : toString (Int.ofNat n) = toString n := rfl
    rw [readSigned64, htext, readInteger_toString (Int.ofNat_le.1 hhigh)]
  | negSucc n =>
    have htext : (toString (Int.negSucc n)).toList = '-' :: Nat.toDigits 10 (n + 1) := by
      rw [← toList_toString]
      show ("-" ++ toString (n + 1)).toList = _
      rw [String.toList_append]
      rfl
    have hbound : n + 1 ≤ maxSigned64 + 1 := by omega
    rw [readSigned64, htext, readInteger_minus (by decide) Nat.toDigits_ne_nil,
      readDigits_toDigits hbound]
    rfl

end Replica.Text
