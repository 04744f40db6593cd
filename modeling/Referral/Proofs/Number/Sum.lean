import Mathlib.Algebra.Order.BigOperators.Group.List
import Mathlib.Tactic.Linarith
import Mathlib.Tactic.NormNum
import Mathlib.Tactic.Ring
import Referral.Proofs.Number.Rational

namespace Referral

theorem digitCount_pos (n : Nat) : 0 < digitCount n := Nat.length_toDigits_pos

theorem digitCount_le_iff {n k : Nat} (hk : 0 < k) : digitCount n ≤ k ↔ n < 10 ^ k :=
  Nat.length_toDigits_le_iff (by decide) hk

theorem roundHalfEven_mul (q : Nat) {den : Nat} (hden : 0 < den) :
    roundHalfEven (q * den) den = q := by
  simp [roundHalfEven, Nat.mul_div_cancel q hden, hden]

theorem signed_mul (negative : Bool) (m n : Nat) :
    signed negative (m * n) = signed negative m * n := by
  cases negative <;> simp [signed]

theorem signed_natAbs (n : Int) : signed (decide (n < 0)) n.natAbs = n := by
  by_cases h : n < 0
  · simp only [signed, h, decide_true, if_true]
    omega
  · simp only [signed, h, decide_false, Bool.false_eq_true, if_false]
    omega

namespace Decimal

theorem withoutLast_mul (m : Nat) {count : Nat} (hcount : 0 < count) :
    withoutLast count (m * 10 ^ count) = m := by
  rw [withoutLast]
  split
  next hshort =>
    have hlt : m * 10 ^ count < 1 * 10 ^ count := by
      rw [Nat.one_mul]
      exact (digitCount_le_iff hcount).1 (Nat.le_of_lt hshort)
    have hm := Nat.lt_of_mul_lt_mul_right hlt
    omega
  next => exact roundHalfEven_mul m (Nat.pow_pos (by decide))

theorem toRat_shift (negative : Bool) (m k : Nat) (e : Int) :
    toRat ⟨negative, m * 10 ^ k, e⟩ = toRat ⟨negative, m, e + k⟩ := by
  simp only [toRat]
  rw [signed_mul, zpow_add₀ (by norm_num), zpow_natCast]
  push_cast
  ring

theorem toRat_zero (negative : Bool) (e : Int) : toRat ⟨negative, 0, e⟩ = 0 := by
  cases negative <;> simp [toRat, signed]

theorem toRat_of_isZero {d : Decimal} (h : d.isZero = true) : d.toRat = 0 := by
  obtain ⟨negative, coefficient, e⟩ := d
  obtain rfl : coefficient = 0 := by simpa [isZero] using h
  exact toRat_zero negative e

theorem abs_toRat (d : Decimal) : |d.toRat| = d.coefficient * 10 ^ d.exponent := by
  have hpower : (0 : ℚ) ≤ 10 ^ d.exponent := zpow_nonneg (by norm_num) _
  rw [toRat, abs_mul, abs_of_nonneg hpower]
  congr 1
  cases d.negative <;> simp [signed]

theorem toRat_eq_scaledTo {d : Decimal} {e : Int} (h : e ≤ d.exponent) :
    d.toRat = scaledTo e d * 10 ^ e := by
  have hshift := toRat_shift d.negative d.coefficient (d.exponent - e).toNat e
  have hexponent : e + ((d.exponent - e).toNat : Int) = d.exponent := by omega
  rw [hexponent] at hshift
  exact hshift.symm

theorem toRat_natAbs (total e : Int) :
    toRat ⟨decide (total < 0), total.natAbs, e⟩ = total * 10 ^ e := by
  rw [toRat, signed_natAbs]

/-- The decimal is so many hundred-millionths. -/
def IsUnits (d : Decimal) (n : Int) : Prop := d.toRat * 10 ^ 8 = n

theorem isUnits_neg {d : Decimal} {n : Int} (h : d.IsUnits n) : d.neg.IsUnits (-n) := by
  rw [IsUnits, toRat_neg, neg_mul, h]
  push_cast
  rfl

namespace IsUnits

variable {d : Decimal} {n : Int}

theorem coefficient_mul (h : d.IsUnits n) :
    d.coefficient * 10 ^ (d.exponent + 8).toNat = n.natAbs * 10 ^ (-(d.exponent + 8)).toNat := by
  have habs : (d.coefficient : ℚ) * 10 ^ (d.exponent + 8) = (n.natAbs : ℚ) := by
    have hvalue := congrArg abs h
    rw [abs_mul, abs_toRat] at hvalue
    rw [zpow_add₀ (by norm_num), ← mul_assoc, Nat.cast_natAbs, Int.cast_abs, ← hvalue]
    norm_num
  have hcast : (d.coefficient : ℚ) * 10 ^ (d.exponent + 8).toNat =
      (n.natAbs : ℚ) * 10 ^ (-(d.exponent + 8)).toNat := by
    rw [← habs, mul_assoc, ← zpow_natCast, ← zpow_natCast, ← zpow_add₀ (by norm_num)]
    congr 2
    omega
  exact_mod_cast hcast

theorem coefficient_mul_lt (h : d.IsUnits n) (hn : n.natAbs < 10 ^ 28) :
    d.coefficient * 10 ^ (d.exponent + 8).toNat < 10 ^ (28 + (-(d.exponent + 8)).toNat) := by
  rw [h.coefficient_mul, pow_add]
  exact Nat.mul_lt_mul_of_pos_right hn (Nat.pow_pos (by decide))

theorem ne_zero (h : d.IsUnits n) (hc : d.coefficient ≠ 0) : n.natAbs ≠ 0 := by
  intro hn
  have hmul := h.coefficient_mul
  rw [hn, Nat.zero_mul] at hmul
  rcases Nat.mul_eq_zero.1 hmul with hzero | hpower
  · exact hc hzero
  · exact absurd hpower (Nat.pow_pos (by decide)).ne'

theorem adjusted_lt (h : d.IsUnits n) (hn : n.natAbs < 10 ^ 28) (hc : d.coefficient ≠ 0) :
    d.adjusted < 20 := by
  have hlt := h.coefficient_mul_lt hn
  have hone : 10 ^ (d.exponent + 8).toNat ≤ d.coefficient * 10 ^ (d.exponent + 8).toNat :=
    Nat.le_mul_of_pos_left _ (Nat.pos_of_ne_zero hc)
  have hpower : (d.exponent + 8).toNat < 28 + (-(d.exponent + 8)).toNat :=
    (Nat.pow_lt_pow_iff_right (by decide)).1 (Nat.lt_of_le_of_lt hone hlt)
  obtain ⟨j, hj⟩ := Nat.exists_eq_add_of_lt hpower
  have hcoefficient : d.coefficient < 10 ^ (j + 1) := by
    refine Nat.lt_of_mul_lt_mul_right (a := 10 ^ (d.exponent + 8).toNat) ?_
    rw [← pow_add]
    convert hlt using 2
    omega
  have hdigits := (digitCount_le_iff (Nat.succ_pos j)).2 hcoefficient
  rw [adjusted]
  omega

theorem le_adjusted (h : d.IsUnits n) (hc : d.coefficient ≠ 0) : -8 ≤ d.adjusted := by
  have hdigits := digitCount_pos d.coefficient
  by_contra hless
  rw [adjusted] at hless
  have hwhole : (d.exponent + 8).toNat = 0 := by omega
  have hle : digitCount d.coefficient ≤ (-(d.exponent + 8)).toNat := by omega
  have hlt := (digitCount_le_iff (by omega)).1 hle
  have hmul := h.coefficient_mul
  rw [hwhole, pow_zero, Nat.mul_one] at hmul
  have hone := Nat.le_mul_of_pos_left (10 ^ (-(d.exponent + 8)).toNat)
    (Nat.pos_of_ne_zero (h.ne_zero hc))
  omega

end IsUnits

def spare (d : Decimal) : Nat :=
  max (digitCount d.coefficient - precision) (bottomPower - d.exponent).toNat

theorem rounded_eq (d : Decimal) :
    rounded d =
      if spare d = 0 then d
      else if withoutLast (spare d) d.coefficient = 10 ^ 28 then
        ⟨d.negative, 10 ^ 27, d.exponent + spare d + 1⟩
      else ⟨d.negative, withoutLast (spare d) d.coefficient, d.exponent + spare d⟩ := rfl

theorem IsUnits.spare_le {d : Decimal} {n : Int} (h : d.IsUnits n) (hn : n.natAbs < 10 ^ 28) :
    spare d ≤ (-(d.exponent + 8)).toNat := by
  have hlt := h.coefficient_mul_lt hn
  have hle : d.coefficient ≤ d.coefficient * 10 ^ (d.exponent + 8).toNat :=
    Nat.le_mul_of_pos_right _ (Nat.pow_pos (by decide))
  have hdigits := (digitCount_le_iff (by omega)).2 (Nat.lt_of_le_of_lt hle hlt)
  simp only [spare, precision, bottomPower]
  omega

theorem IsUnits.exists_coefficient_eq {d : Decimal} {n : Int} (h : d.IsUnits n)
    (hn : n.natAbs < 10 ^ 28) : ∃ m, d.coefficient = m * 10 ^ spare d := by
  have hspare := h.spare_le hn
  by_cases hfew : spare d = 0
  · exact ⟨d.coefficient, by rw [hfew, pow_zero, Nat.mul_one]⟩
  · have hwhole : (d.exponent + 8).toNat = 0 := by omega
    have hmul := h.coefficient_mul
    rw [hwhole, pow_zero, Nat.mul_one] at hmul
    refine ⟨n.natAbs * 10 ^ ((-(d.exponent + 8)).toNat - spare d), ?_⟩
    rw [hmul, Nat.mul_assoc, ← pow_add, Nat.sub_add_cancel hspare]

theorem toRat_rounded {d : Decimal} {n : Int} (h : d.IsUnits n) (hn : n.natAbs < 10 ^ 28) :
    (rounded d).toRat = d.toRat := by
  obtain ⟨m, hm⟩ := h.exists_coefficient_eq hn
  rw [rounded_eq]
  by_cases hfew : spare d = 0
  · rw [if_pos hfew]
  · have hkept : withoutLast (spare d) d.coefficient = m := by
      rw [hm]
      exact withoutLast_mul m (Nat.pos_of_ne_zero hfew)
    have hvalue : d.toRat = toRat ⟨d.negative, m, d.exponent + spare d⟩ := by
      rw [← toRat_shift, ← hm]
    rw [if_neg hfew, hkept, hvalue]
    split
    next hcarry =>
      have hshift := toRat_shift d.negative (10 ^ 27) 1 (d.exponent + spare d)
      rw [hcarry]
      exact hshift.symm
    next => rfl

def reach (upper : Decimal) : Int :=
  upper.exponent + min (-1) ((digitCount upper.coefficient : Int) - (precision + 2))

theorem withinReach_eq (upper lower : Decimal) :
    withinReach upper lower =
      if lower.adjusted < reach upper then ⟨lower.negative, min lower.coefficient 1, reach upper⟩
      else lower := rfl

theorem reach_lt (upper : Decimal) : reach upper < upper.exponent := by
  rw [reach]
  omega

theorem reach_le (upper : Decimal) : reach upper ≤ upper.adjusted - 29 := by
  simp only [reach, adjusted, precision]
  omega

theorem withinReach_exact {upper lower : Decimal} {m n : Int} (hupper : upper.IsUnits m)
    (hm : m.natAbs < 10 ^ 28) (hc : upper.coefficient ≠ 0) (hlower : lower.IsUnits n)
    (hle : lower.exponent ≤ upper.exponent) :
    (withinReach upper lower).toRat = lower.toRat ∧
      (withinReach upper lower).exponent ≤ upper.exponent := by
  have htop := hupper.adjusted_lt hm hc
  have hreach := reach_le upper
  rw [withinReach_eq]
  split
  next hfar =>
    have hzero : lower.coefficient = 0 := by
      by_contra hne
      have hlow := hlower.le_adjusted hne
      omega
    have hvalue : lower.toRat = 0 := toRat_of_isZero (by simp [isZero, hzero])
    rw [hzero, hvalue]
    exact ⟨toRat_zero _ _, (reach_lt upper).le⟩
  next => exact ⟨rfl, hle⟩

theorem toRat_sumOrdered {upper lower : Decimal} {m n : Int} (hupper : upper.IsUnits m)
    (hm : m.natAbs < 10 ^ 28) (hlower : lower.IsUnits n)
    (hle : lower.exponent ≤ upper.exponent) :
    (sumOrdered upper lower).toRat = upper.toRat + lower.toRat := by
  rw [sumOrdered]
  by_cases hzero : upper.isZero = true
  · rw [if_pos hzero, toRat_of_isZero hzero, zero_add]
    by_cases hlower : lower.isZero = true
    · rw [toRat_of_isZero hlower]
      exact toRat_of_isZero hlower
    · simp [hlower, toRat]
  · have hc : upper.coefficient ≠ 0 := by simpa [isZero] using hzero
    obtain ⟨hvalue, hexponent⟩ := withinReach_exact hupper hm hc hlower hle
    rw [if_neg hzero, ← hvalue, toRat_eq_scaledTo hexponent,
      toRat_eq_scaledTo (d := withinReach upper lower) (le_refl _), ← add_mul, ← Int.cast_add]
    exact toRat_natAbs _ _

theorem sum_exact {a b : Decimal} {m n : Int} (ha : a.IsUnits m) (hb : b.IsUnits n)
    (hm : m.natAbs < 10 ^ 28) (hn : n.natAbs < 10 ^ 28) (hmn : (m + n).natAbs < 10 ^ 28) :
    ∃ d, sum a b = .ok d ∧ d.toRat = a.toRat + b.toRat ∧ d.IsUnits (m + n) := by
  obtain ⟨s, hs, hsum⟩ : ∃ s, (if a.exponent < b.exponent then sumOrdered b a
      else sumOrdered a b) = s ∧ s.toRat = a.toRat + b.toRat := by
    split
    next hlt => exact ⟨_, rfl, by rw [toRat_sumOrdered hb hn ha hlt.le, add_comm]⟩
    next hle => exact ⟨_, rfl, toRat_sumOrdered ha hm hb (not_lt.1 hle)⟩
  have hunits : s.IsUnits (m + n) := by
    rw [IsUnits, hsum, add_mul, ha, hb, Int.cast_add]
  have hrounded := toRat_rounded hunits hmn
  have hkept : (rounded s).IsUnits (m + n) := by rw [IsUnits, hrounded, hunits]
  refine ⟨rounded s, ?_, hrounded.trans hsum, hkept⟩
  have hfits : ¬ (!(rounded s).isZero && decide (topPower < (rounded s).adjusted)) = true := by
    rw [Bool.and_eq_true, Bool.not_eq_true', decide_eq_true_eq]
    rintro ⟨hne, hover⟩
    have hlt := hkept.adjusted_lt hmn (by simpa [isZero] using hne)
    rw [topPower] at hover
    omega
  rw [sum, hs]
  exact if_neg hfits

/-- Adding up many decimals, each less than `10 ^ 20` units, to one that leaves room for them. -/
theorem foldlM_sum_exact (xs : List Decimal) {d : Decimal} {n : Int} (hd : d.IsUnits n)
    (hxs : ∀ x ∈ xs, ∃ k, x.IsUnits k ∧ k.natAbs < 10 ^ 20)
    (hroom : n.natAbs + xs.length * (10 ^ 20 - 1) < 10 ^ 28) :
    ∃ d', xs.foldlM sum d = .ok d' ∧ d'.toRat = d.toRat + (xs.map toRat).sum ∧
      ∃ n', d'.IsUnits n' ∧ n'.natAbs < 10 ^ 28 := by
  induction xs generalizing d n with
  | nil => exact ⟨d, rfl, by simp, n, hd, by simpa using hroom⟩
  | cons x xs ih =>
      obtain ⟨k, hx, hk⟩ := hxs x List.mem_cons_self
      rw [List.length_cons] at hroom
      obtain ⟨e, hsum, hvalue, he⟩ :=
        sum_exact hd hx (by omega) (by omega) (by omega)
      obtain ⟨d', hfold, hvalue', hunits⟩ :=
        ih he (fun y hy => hxs y (List.mem_cons_of_mem _ hy)) (by omega)
      refine ⟨d', ?_, ?_, hunits⟩
      · rw [List.foldlM_cons, hsum]
        exact hfold
      · rw [hvalue', hvalue, List.map_cons, List.sum_cons, add_assoc]

end Decimal

end Referral
