/-
Replica.Proofs.Number.Whole — whole numbers as binary64 numbers.

An integer of magnitude at most `2^53` is a binary64 number: rounding gives it back
(`units_ofInt`), so comparing two such integers as binary64 numbers is comparing them
(`order_ofInt`).
-/
import Replica.Number.Double

namespace Replica.Double

theorem twoTo_add (m n : Nat) : twoTo (m + n) = twoTo m * twoTo n := Nat.pow_add 2 m n

theorem twoTo_pos (n : Nat) : 0 < twoTo n := Nat.two_pow_pos n

theorem roundDiv_one (n : Nat) : roundDiv n 1 = n := by
  simp [roundDiv, Nat.mod_one]

/-- A whole number has as many digits as its logarithm says, and is not below normal. -/
theorem exponentOf_whole {n : Nat} (hn : n ≠ 0) : exponentOf n 1 = (n.log2 : Int) - 52 := by
  have hlog : twoTo n.log2 ≤ n := Nat.log2_self_le hn
  have hnormal : belowNormal n 1 ((n.log2 : Int) - 52) = false := by
    have hplace : (52 : Int) + ((n.log2 : Int) - 52) = n.log2 := by omega
    simp only [belowNormal, hplace, Int.toNat_natCast]
    simp only [Nat.one_mul, Int.natCast_nonneg, if_true]
    exact decide_eq_false (Nat.not_lt.2 hlog)
  have hone : Nat.log2 1 = 0 := by decide
  simp only [exponentOf, hone, leastExponent]
  simp only [Int.natCast_zero, Int.sub_zero, hnormal]
  simp
  omega

/-- A whole number below `2^53` is its mantissa, moved to the 53-bit place. -/
theorem ofRatio?_whole (negative : Bool) {n : Nat} (hn : n ≠ 0) (h : n < twoTo 53) :
    ofRatio? negative n 1
      = some ⟨negative, n * twoTo (52 - n.log2), (n.log2 : Int) - 52⟩ := by
  have hlog : n.log2 < 53 := (Nat.log2_lt hn).2 h
  have hmantissa : mantissaAt n 1 ((n.log2 : Int) - 52) = n * twoTo (52 - n.log2) := by
    rw [mantissaAt]
    split
    · have hzero : n.log2 = 52 := by omega
      have hone : twoTo 0 = 1 := rfl
      simp [hzero, hone, roundDiv_one]
    · have hplaces : (-((n.log2 : Int) - 52)).toNat = 52 - n.log2 := by omega
      rw [hplaces, roundDiv_one]
  have hbits : n * twoTo (52 - n.log2) < twoTo 53 := by
    have hupper : n < twoTo (n.log2 + 1) := Nat.lt_log2_self
    calc n * twoTo (52 - n.log2)
        < twoTo (n.log2 + 1) * twoTo (52 - n.log2) :=
          Nat.mul_lt_mul_of_pos_right hupper (twoTo_pos _)
      _ = twoTo 53 := by
          rw [← twoTo_add]
          congr 1
          omega
  have hsmall : ¬ greatestExponent < (n.log2 : Int) - 52 := by
    rw [greatestExponent]
    omega
  simp only [ofRatio?, if_neg hn, exponentOf_whole hn, hmantissa, if_neg (Nat.ne_of_lt hbits),
    if_neg hsmall]

theorem magnitude_whole (negative : Bool) {n : Nat} (h : n.log2 < 53) :
    magnitude ⟨negative, n * twoTo (52 - n.log2), (n.log2 : Int) - 52⟩ = n * unitsOfOne := by
  have hplaces : ((n.log2 : Int) - 52 - leastExponent).toNat = n.log2 + 1022 := by
    rw [leastExponent]
    omega
  have hsum : 52 - n.log2 + (n.log2 + 1022) = 1074 := by omega
  rw [magnitude, hplaces, unitsOfOne, Nat.mul_assoc, ← twoTo_add, hsum]

/-- The magnitude of a whole number of at most `2^53`. -/
theorem magnitude_ofRatio? (negative : Bool) {n : Nat} (h : n ≤ twoTo 53) :
    ((ofRatio? negative n 1).getD (zero false)).magnitude = n * unitsOfOne := by
  by_cases hn : n = 0
  · subst hn
    simp [ofRatio?, zero, magnitude]
  · rcases Nat.lt_or_eq_of_le h with hlt | rfl
    · rw [ofRatio?_whole negative hn hlt, Option.getD_some]
      exact magnitude_whole negative ((Nat.log2_lt hn).2 hlt)
    · cases negative <;> decide +kernel

theorem negative_ofRatio? (negative : Bool) {n : Nat} (h : n ≤ twoTo 53) (hn : n ≠ 0) :
    ((ofRatio? negative n 1).getD (zero false)).negative = negative := by
  rcases Nat.lt_or_eq_of_le h with hlt | rfl
  · rw [ofRatio?_whole negative hn hlt]
    rfl
  · cases negative <;> decide +kernel

/-- An integer of magnitude at most `2^53` is exact. -/
theorem units_ofInt {n : Int} (h : n.natAbs ≤ twoTo 53) : (ofInt n).units = n * unitsOfOne := by
  have hmagnitude := magnitude_ofRatio? (decide (n < 0)) h
  rw [units, ofInt, hmagnitude]
  by_cases hzero : n = 0
  · subst hzero
    simp only [Int.natAbs_zero, Nat.zero_mul, Int.zero_mul, Int.natCast_zero, Int.neg_zero,
      ite_self]
  · have hnegative := negative_ofRatio? (decide (n < 0)) h (by omega)
    rw [hnegative]
    by_cases hsign : n < 0
    · have habs : (n.natAbs : Int) = -n := by omega
      rw [decide_eq_true hsign, if_pos rfl, Int.natCast_mul, habs, Int.neg_mul, Int.neg_neg]
    · have habs : (n.natAbs : Int) = n := by omega
      rw [decide_eq_false hsign, if_neg Bool.false_ne_true, Int.natCast_mul, habs]

theorem compare_mul_right {a b c : Int} (hc : 0 < c) : compare (a * c) (b * c) = compare a b := by
  simp only [compare, compareOfLessAndEq, Int.mul_lt_mul_right hc]
  have heq : a * c = b * c ↔ a = b := Int.mul_eq_mul_right_iff (by omega)
  simp only [heq]

/-- Integers of magnitude at most `2^53` keep their order. -/
theorem order_ofInt {m n : Int} (hm : m.natAbs ≤ twoTo 53) (hn : n.natAbs ≤ twoTo 53) :
    (ofInt m).order (ofInt n) = compare m n := by
  have hone : (0 : Int) < unitsOfOne := Int.natCast_pos.2 (twoTo_pos 1074)
  rw [order, units_ofInt hm, units_ofInt hn, compare_mul_right hone]

end Replica.Double
