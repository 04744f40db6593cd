import Referral.Proofs.Ledger.Request
import Referral.Proofs.Ledger.Total

namespace Referral

namespace Decimal

theorem isNegative_eq_false_iff (d : Decimal) : d.isNegative = false ↔ 0 ≤ d.toRat := by
  refine ⟨toRat_nonneg, fun hnonneg => ?_⟩
  by_contra hnegative
  rw [Bool.not_eq_false, isNegative, Bool.and_eq_true, Bool.not_eq_true', isZero,
    decide_eq_false_iff_not] at hnegative
  obtain ⟨hsign, hd⟩ := hnegative
  have hten : (0 : ℚ) < 10 ^ d.exponent := zpow_pos (by norm_num) _
  have hsigned : ((signed d.negative d.coefficient : ℤ) : ℚ) < 0 := by
    rw [signed, if_pos hsign]
    exact_mod_cast (by omega : -(d.coefficient : ℤ) < 0)
  exact absurd hnonneg (not_le.2 (mul_neg_of_neg_of_pos hsigned hten))

theorem toRat_dropZeros (fuel : Nat) (d : Decimal) : (dropZeros fuel d).toRat = d.toRat := by
  induction fuel generalizing d with
  | zero => rfl
  | succ fuel ih =>
      rw [dropZeros]
      split
      · rfl
      next hzero =>
        have hcoefficient : d.coefficient = d.coefficient / 10 * 10 ^ 1 := by omega
        have hshift := toRat_shift d.negative (d.coefficient / 10) 1 d.exponent
        rw [← hcoefficient] at hshift
        rw [ih]
        exact hshift.symm

theorem toRat_normalized (d : Decimal) : d.normalized.toRat = d.toRat := by
  rw [normalized]
  split
  next hzero => rw [toRat_of_isZero hzero, toRat_zero]
  next => exact toRat_dropZeros _ d

theorem dropZeros_mod_ne {fuel : Nat} {d : Decimal} (hd : d.coefficient ≠ 0)
    (hfuel : d.coefficient < 10 ^ fuel) : (dropZeros fuel d).coefficient % 10 ≠ 0 := by
  induction fuel generalizing d with
  | zero =>
      rw [pow_zero] at hfuel
      omega
  | succ fuel ih =>
      rw [dropZeros]
      split
      next hlast => exact hlast
      next hlast =>
        rw [pow_succ] at hfuel
        apply ih
        · dsimp only
          omega
        · dsimp only
          omega

theorem normalized_mod_ne {d : Decimal} (hd : d.coefficient ≠ 0) :
    d.normalized.coefficient % 10 ≠ 0 := by
  have hdigits := (digitCount_le_iff (digitCount_pos d.coefficient)).1 (Nat.le_refl _)
  rw [normalized, if_neg (by simpa [isZero] using hd)]
  exact dropZeros_mod_ne hd hdigits

def wholeDigits (d : Decimal) : Nat := (d.exponent + digitCount d.coefficient).toNat

def places (d : Decimal) : Nat := (-d.exponent).toNat

theorem extent_eq (d : Decimal) : Schema.extent d = (d.wholeDigits + d.places, d.places) := by
  simp only [Schema.extent, wholeDigits, places]
  split <;> rw [Prod.mk.injEq] <;> omega

theorem pow_digitCount_le {n : Nat} (hn : n ≠ 0) : 10 ^ (digitCount n - 1) ≤ n := by
  by_contra hless
  have hpos := digitCount_pos n
  rcases Nat.eq_zero_or_pos (digitCount n - 1) with hone | hmore
  · rw [hone, pow_zero] at hless
    omega
  · have hdigits := (digitCount_le_iff hmore).2 (Nat.lt_of_not_le hless)
    omega

theorem wholeDigits_le_iff {d : Decimal} (hd : d.coefficient ≠ 0) {count : Nat} :
    d.wholeDigits ≤ count ↔ |d.toRat| < 10 ^ count := by
  have hpos := digitCount_pos d.coefficient
  have hupper := (digitCount_le_iff hpos).1 (Nat.le_refl _)
  have hlower := pow_digitCount_le hd
  have hten : (0 : ℚ) < 10 ^ d.exponent := zpow_pos (by norm_num) _
  rw [abs_toRat, wholeDigits]
  constructor
  · intro hcount
    have hpower :
        (10 : ℚ) ^ (digitCount d.coefficient : ℤ) * 10 ^ d.exponent ≤ 10 ^ (count : ℤ) := by
      rw [← zpow_add₀ (by norm_num)]
      exact zpow_le_zpow_right₀ (by norm_num) (by omega)
    have hcast : (d.coefficient : ℚ) < 10 ^ (digitCount d.coefficient : ℤ) := by
      rw [zpow_natCast]
      exact_mod_cast hupper
    rw [← zpow_natCast]
    exact lt_of_lt_of_le (mul_lt_mul_of_pos_right hcast hten) hpower
  · intro hless
    by_contra hmore
    have hpower : (10 : ℚ) ^ (count : ℤ) ≤
        10 ^ ((digitCount d.coefficient - 1 : Nat) : ℤ) * 10 ^ d.exponent := by
      rw [← zpow_add₀ (by norm_num)]
      exact zpow_le_zpow_right₀ (by norm_num) (by omega)
    have hcast : (10 : ℚ) ^ ((digitCount d.coefficient - 1 : Nat) : ℤ) ≤ d.coefficient := by
      rw [zpow_natCast]
      exact_mod_cast hlower
    rw [← zpow_natCast] at hless
    exact absurd (hpower.trans (mul_le_mul_of_nonneg_right hcast hten.le)) (not_le.2 hless)

theorem exists_isUnits_of_places {d : Decimal} (h : d.places ≤ 8) : ∃ k, d.IsUnits k := by
  have hexponent : -8 ≤ d.exponent := by
    rw [places] at h
    omega
  refine ⟨scaledTo (-8) d, ?_⟩
  rw [IsUnits, toRat_eq_scaledTo hexponent, mul_assoc]
  norm_num

theorem places_of_isUnits {d : Decimal} {k : Int} (hd : d.coefficient % 10 ≠ 0)
    (h : d.IsUnits k) : d.places ≤ 8 := by
  have hmul := h.coefficient_mul
  by_contra hmore
  rw [places] at hmore
  obtain ⟨j, hj⟩ : ∃ j, (-(d.exponent + 8)).toNat = j + 1 :=
    ⟨(-(d.exponent + 8)).toNat - 1, by omega⟩
  have hwhole : (d.exponent + 8).toNat = 0 := by omega
  rw [hwhole, hj, pow_zero, Nat.mul_one, pow_succ, ← Nat.mul_assoc] at hmul
  omega

end Decimal

namespace Schema

open Decimal

theorem rewardAmount_eq (d : Decimal) :
    rewardAmount d =
      if maxDigits < d.wholeDigits + d.places ∧
          maxDigits < d.normalized.wholeDigits + d.normalized.places then
        .fail (.tooManyDigits maxDigits)
      else if maxPlaces < d.places ∧ maxPlaces < d.normalized.places then
        .fail (.tooManyPlaces maxPlaces)
      else if 12 < d.wholeDigits ∧ 12 < d.normalized.wholeDigits then .fail (.tooManyWholeDigits 12)
      else if d.isNegative then .fail .belowZero
      else .ok d := by
  simp only [rewardAmount, extent_eq, Nat.add_sub_cancel, Bool.and_eq_true, decide_eq_true_eq]
  rfl

theorem rewardAmount_zero {d : Decimal} (hd : d.coefficient = 0) : rewardAmount d = .ok d := by
  have hzero : d.isZero = true := by simpa [isZero] using hd
  have hone : digitCount 0 = 1 := by decide
  rw [rewardAmount_eq, normalized, if_pos hzero]
  simp [wholeDigits, places, hone, maxDigits, maxPlaces, isNegative, hzero]

theorem rewardAmount_eq_ok_iff (d : Decimal) : rewardAmount d = .ok d ↔ d.WithinLimits := by
  by_cases hd : d.coefficient = 0
  · have hvalue : d.toRat = 0 := toRat_of_isZero (by simpa [isZero] using hd)
    simp only [rewardAmount_zero hd, WithinLimits, hvalue, true_iff]
    exact ⟨le_refl _, by norm_num, 0, by norm_num⟩
  have hlast := normalized_mod_ne hd
  have hwhole : d.wholeDigits ≤ 12 ↔ |d.toRat| < 10 ^ 12 := wholeDigits_le_iff hd
  have hsame : d.normalized.wholeDigits ≤ 12 ↔ d.wholeDigits ≤ 12 := by
    rw [hwhole, ← toRat_normalized]
    exact wholeDigits_le_iff (by omega)
  have hunits : (∃ k : ℤ, d.toRat * 10 ^ 8 = k) ↔ d.normalized.places ≤ 8 := by
    rw [← toRat_normalized]
    exact ⟨fun h => h.elim fun k => places_of_isUnits hlast, exists_isUnits_of_places⟩
  have hplaces : d.places ≤ 8 → d.normalized.places ≤ 8 :=
    fun h => hunits.1 (exists_isUnits_of_places h)
  rw [rewardAmount_eq, WithinLimits, hunits, maxDigits, maxPlaces, ← isNegative_eq_false_iff]
  constructor
  · intro h
    split at h
    · cases h
    split at h
    · cases h
    split at h
    · cases h
    split at h
    · cases h
    next hfine hsmall hsign =>
      rw [Bool.not_eq_true] at hsign
      rw [abs_of_nonneg (toRat_nonneg hsign)] at hwhole
      exact ⟨hsign, hwhole.1 (by omega), by omega⟩
  · rintro ⟨hsign, hless, hfine⟩
    rw [abs_of_nonneg (toRat_nonneg hsign)] at hwhole
    have hsmall := hwhole.2 hless
    -- Eight places and twelve digits before them are no more than twenty digits.
    rw [if_neg (by omega), if_neg (by omega), if_neg (by omega), if_neg (by simp [hsign])]

end Schema

end Referral
