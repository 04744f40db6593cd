import Mathlib.Algebra.Order.Floor.Semifield
import Mathlib.Data.Rat.Floor
import Mathlib.Tactic.FieldSimp
import Referral.Proofs.Number.Sum

namespace Referral

/-- The nearest number with two places; of two that are equally near, the one farther from zero. -/
def inCents (q : ℚ) : ℚ := (if q < 0 then -1 else 1) * (⌊|q| * 100 + 1 / 2⌋₊ : ℚ) / 100

theorem floor_half_add (m : Nat) : ⌊(m : ℚ) + 1 / 2⌋₊ = m := by
  rw [Nat.floor_eq_iff (by positivity)]
  constructor <;> linarith

theorem roundHalfUp_eq_floor (num : Nat) {den : Nat} (hden : 0 < den) :
    roundHalfUp num den = ⌊(num : ℚ) / den + 1 / 2⌋₊ := by
  have hquotient : (num : ℚ) / den + 1 / 2 = ((2 * num + den : Nat) : ℚ) / (2 * den : Nat) := by
    have hne : (den : ℚ) ≠ 0 := by exact_mod_cast hden.ne'
    push_cast
    field_simp
  rw [roundHalfUp, hquotient, Nat.floor_div_eq_div]

namespace Decimal

def cents (d : Decimal) : Nat :=
  if -2 ≤ d.exponent then d.coefficient * 10 ^ (d.exponent + 2).toNat
  else if d.adjusted < -4 then 0
  else roundHalfUp d.coefficient (10 ^ (-2 - d.exponent).toNat)

theorem toCents_eq_ok {d : Decimal} (hsize : d.adjusted < 20) (hdigits : digitCount d.cents ≤ 28) :
    d.toCents = .ok ⟨d.negative, if d.isZero then 0 else d.cents, -2⟩ := by
  have hsize' : ¬ (precision : Int) < d.adjusted + 3 := by
    rw [precision]
    omega
  rw [toCents]
  dsimp only
  by_cases hzero : d.isZero = true
  · rw [if_pos hzero, if_pos hzero]
    rfl
  rw [if_neg hzero, if_neg hsize', if_neg hzero]
  rw [cents] at hdigits ⊢
  by_cases hexponent : -2 ≤ d.exponent
  · rw [if_pos hexponent] at hdigits ⊢
    rw [if_pos hexponent]
    exact if_neg (not_lt.2 hdigits)
  rw [if_neg hexponent] at hdigits ⊢
  rw [if_neg hexponent]
  by_cases hsmall : d.adjusted < -4
  · rw [if_pos hsmall] at hdigits ⊢
    rw [if_pos hsmall]
    exact if_neg (not_lt.2 hdigits)
  · rw [if_neg hsmall] at hdigits ⊢
    rw [if_neg hsmall]
    exact if_neg (not_lt.2 hdigits)

theorem coefficient_lt (d : Decimal) :
    (d.coefficient : ℚ) * 10 ^ d.exponent < 10 ^ (d.adjusted + 1) := by
  have hlt : d.coefficient < 10 ^ digitCount d.coefficient :=
    (digitCount_le_iff (digitCount_pos _)).1 (le_refl _)
  have hcast : (d.coefficient : ℚ) < 10 ^ (digitCount d.coefficient : Int) := by
    rw [zpow_natCast]
    exact_mod_cast hlt
  have hexponent : d.adjusted + 1 = digitCount d.coefficient + d.exponent := by
    rw [adjusted]
    omega
  rw [hexponent, zpow_add₀ (by norm_num)]
  exact mul_lt_mul_of_pos_right hcast (zpow_pos (by norm_num) _)

theorem cents_eq_floor (d : Decimal) : d.cents = ⌊|d.toRat| * 100 + 1 / 2⌋₊ := by
  have hhundred : |d.toRat| * 100 = d.coefficient * (10 : ℚ) ^ (d.exponent + 2) := by
    rw [abs_toRat, zpow_add₀ (by norm_num), mul_assoc]
    norm_num
  rw [cents, hhundred]
  split
  next hexponent =>
    have hpower : (10 : ℚ) ^ (d.exponent + 2) = ((10 ^ (d.exponent + 2).toNat : Nat) : ℚ) := by
      rw [Nat.cast_pow, ← zpow_natCast, Int.toNat_of_nonneg (by omega)]
      rfl
    rw [hpower, ← Nat.cast_mul, floor_half_add]
  next hexponent =>
    split
    next hsmall =>
      have hlt := coefficient_lt d
      have hbound : (10 : ℚ) ^ (d.adjusted + 1) ≤ 10 ^ (-4 : Int) :=
        zpow_le_zpow_right₀ (by norm_num) (by omega)
      rw [zpow_add₀ (by norm_num), ← mul_assoc]
      symm
      rw [Nat.floor_eq_zero]
      norm_num at hbound ⊢
      linarith
    next hsmall =>
      have hpower : (d.coefficient : ℚ) * (10 : ℚ) ^ (d.exponent + 2) =
          d.coefficient / ((10 ^ (-2 - d.exponent).toNat : Nat) : ℚ) := by
        rw [div_eq_mul_inv, Nat.cast_pow, ← zpow_natCast, Int.toNat_of_nonneg (by omega),
          ← zpow_neg]
        norm_num [add_comm]
      rw [hpower]
      exact roundHalfUp_eq_floor _ (Nat.pow_pos (by decide))

theorem toRat_inCents (d : Decimal) :
    toRat ⟨d.negative, if d.isZero then 0 else d.cents, -2⟩ = inCents d.toRat := by
  by_cases hzero : d.isZero = true
  · rw [if_pos hzero, toRat_zero, toRat_of_isZero hzero]
    norm_num [inCents]
  · have hc : (0 : ℚ) < d.coefficient := by
      have hne : d.coefficient ≠ 0 := by simpa [isZero] using hzero
      exact_mod_cast Nat.pos_of_ne_zero hne
    have hpower : (0 : ℚ) < 10 ^ d.exponent := zpow_pos (by norm_num) _
    have hsign : d.toRat < 0 ↔ d.negative = true := by
      have hpos := mul_pos hc hpower
      rw [toRat]
      cases d.negative with
      | true => simp [signed, hpos]
      | false => simp [signed, hpos.le]
    rw [if_neg hzero, inCents, ← cents_eq_floor]
    cases hnegative : d.negative with
    | true =>
        rw [if_pos (hsign.2 hnegative)]
        norm_num [toRat, signed]
        ring
    | false =>
        rw [if_neg fun hlt => by rw [hsign.1 hlt] at hnegative; cases hnegative]
        norm_num [toRat, signed]
        ring

theorem toCents_exact {d : Decimal} {n : Int} (h : d.IsUnits n) (hn : n.natAbs < 10 ^ 28) :
    ∃ c, d.toCents = .ok c ∧ c.toRat = inCents d.toRat ∧ c.exponent = -2 := by
  by_cases hzero : d.isZero = true
  · refine ⟨⟨d.negative, 0, -2⟩, ?_, ?_, rfl⟩
    · rw [toCents, if_pos hzero]
      rfl
    · have hvalue := toRat_inCents d
      rwa [if_pos hzero] at hvalue
  · have hc : d.coefficient ≠ 0 := by simpa [isZero] using hzero
    have hdigits : digitCount d.cents ≤ 28 := by
      rw [digitCount_le_iff (by decide), cents_eq_floor, Nat.floor_lt (by positivity)]
      have habs : |d.toRat| * 10 ^ 8 = (n.natAbs : ℚ) := by
        rw [Nat.cast_natAbs, Int.cast_abs, ← h, abs_mul,
          abs_of_nonneg (by norm_num : (0 : ℚ) ≤ 10 ^ 8)]
      have hbound : (n.natAbs : ℚ) < 10 ^ 28 := by exact_mod_cast hn
      push_cast
      linarith
    exact ⟨_, toCents_eq_ok (h.adjusted_lt hn hc) hdigits, toRat_inCents d, rfl⟩

end Decimal

end Referral
