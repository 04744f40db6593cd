import Mathlib.Algebra.Order.Field.Power
import Mathlib.Algebra.Order.Field.Rat
import Referral.Number.DecimalSum

namespace Referral

theorem signed_not (negative : Bool) (n : Nat) : signed (!negative) n = -signed negative n := by
  cases negative <;> simp [signed]

namespace Decimal

def toRat (d : Decimal) : ℚ := signed d.negative d.coefficient * 10 ^ d.exponent

theorem toRat_neg (d : Decimal) : d.neg.toRat = -d.toRat := by
  rw [toRat, toRat, neg, signed_not, Int.cast_neg, neg_mul]

theorem signed_nonneg {d : Decimal} (h : d.isNegative = false) :
    0 ≤ signed d.negative d.coefficient := by
  rw [signed]
  split
  next hnegative =>
    simp only [isNegative, hnegative, Bool.true_and, Bool.not_eq_false', isZero,
      decide_eq_true_eq] at h
    omega
  next => omega

theorem toRat_nonneg {d : Decimal} (h : d.isNegative = false) : 0 ≤ d.toRat :=
  mul_nonneg (Int.cast_nonneg (signed_nonneg h)) (zpow_nonneg (by decide) _)

end Decimal

end Referral
