import Referral.Proofs.Number.Shown

namespace Referral

namespace Double

def value? : Double → Option ℚ
  | finite negative rank => some (signed negative (mantissa rank) * 2 ^ scale rank)
  | _ => none

theorem signed_mul_zpow_neg_eq_iff (negative : Bool) (m k : Nat) (n : Int) :
    (signed negative m * 2 ^ (-(k : Int)) : ℚ) = n ↔
      m % 2 ^ k = 0 ∧ signed negative (m / 2 ^ k) = n := by
  have hpower : (2 : ℚ) ^ k ≠ 0 := by positivity
  have hcast : (signed negative m * 2 ^ (-(k : Int)) : ℚ) = n ↔
      signed negative m = n * ((2 ^ k : Nat) : Int) := by
    rw [zpow_neg, zpow_natCast, ← div_eq_mul_inv, div_eq_iff hpower]
    constructor <;> intro h
    · exact_mod_cast h
    · exact_mod_cast h
  rw [hcast]
  constructor
  · intro h
    have hdvd : 2 ^ k ∣ m := by
      have hint : ((2 ^ k : Nat) : Int) ∣ signed negative m := ⟨n, by rw [h, mul_comm]⟩
      cases negative with
      | false => exact Int.natCast_dvd_natCast.1 hint
      | true => exact Int.natCast_dvd_natCast.1 ((dvd_neg (b := (m : Int))).1 hint)
    refine ⟨Nat.mod_eq_zero_of_dvd hdvd, ?_⟩
    obtain ⟨j, rfl⟩ := hdvd
    rw [mul_comm, signed_mul] at h
    rw [Nat.mul_div_cancel_left j (Nat.two_pow_pos k)]
    exact mul_right_cancel₀ (by exact_mod_cast (Nat.two_pow_pos k).ne') h
  · rintro ⟨hmod, rfl⟩
    rw [← signed_mul, Nat.div_mul_cancel (Nat.dvd_of_mod_eq_zero hmod)]

theorem integer?_eq_some_iff (x : Double) (n : Int) :
    x.integer? = some n ↔ x.value? = some (n : ℚ) := by
  cases x with
  | nan | infinity negative => exact iff_of_false nofun nofun
  | finite negative rank =>
      rw [integer?, value?, Option.some.injEq]
      by_cases hwhole : 0 ≤ scale rank
      · obtain ⟨k, hk⟩ := Int.eq_ofNat_of_zero_le hwhole
        have hvalue : (signed negative (mantissa rank) * 2 ^ scale rank : ℚ) =
            (signed negative (mantissa rank * 2 ^ k) : Int) := by
          rw [hk, signed_mul, zpow_natCast]
          push_cast
          rfl
        rw [if_pos hwhole, hvalue, Int.cast_inj, Option.some.injEq, hk]
        rfl
      · obtain ⟨k, hk⟩ : ∃ k : Nat, scale rank = -(k : Int) := ⟨(-scale rank).toNat, by omega⟩
        rw [if_neg hwhole, hk, signed_mul_zpow_neg_eq_iff, neg_neg, Int.toNat_natCast]
        change (if mantissa rank % 2 ^ k = 0 then
          some (signed negative (mantissa rank / 2 ^ k)) else none) = some n ↔ _
        split
        next hmod => simp [hmod]
        next hmod => simp [hmod]

theorem natAbs_signed (negative : Bool) (n : Nat) : (signed negative n).natAbs = n := by
  cases negative <;> simp [signed]

theorem exists_natAbs_lt_of_integer? {x : Double} {n : Int} (h : x.integer? = some n) :
    ∃ k ≤ 1000, n.natAbs < 10 ^ k := by
  cases x with
  | nan | infinity negative => cases h
  | finite negative rank =>
      have hmantissa := mantissa_lt rank
      obtain ⟨-, hscale⟩ := scale_bounds rank
      rw [integer?] at h
      split at h
      next hwhole =>
        obtain rfl := Option.some.inj h
        refine ⟨16 + (scale rank).toNat, by omega, ?_⟩
        rw [natAbs_signed]
        exact Shortest.mul_pow_lt hmantissa (by decide) (Nat.le_refl _)
      next hwhole =>
        split at h
        next hmod =>
          obtain rfl := Option.some.inj h
          rw [natAbs_signed]
          exact ⟨16, by decide, (Nat.div_le_self _ _).trans_lt hmantissa⟩
        next hmod => cases h

end Double

theorem tooLong_eq_false_of_lt {n : Int} {k : Nat} (hk : k ≤ digitLimit)
    (hless : n.natAbs < 10 ^ k) : tooLong n = false := by
  have hle {j : Nat} (hj : k ≤ j) : 10 ^ k ≤ Nat.pow 10 j := Nat.pow_le_pow_right (by decide) hj
  rw [tooLong, decide_eq_false_iff_not, Nat.not_le]
  exact hless.trans_le (hle hk)

theorem tooLong_eq_false_iff (n : Int) :
    tooLong n = false ↔ digitCount n.natAbs ≤ digitLimit :=
  ⟨Spelling.digitCount_le_digitLimit, fun h =>
    tooLong_eq_false_of_lt h ((digitCount_le_iff (digitCount_pos _)).1 (Nat.le_refl _))⟩

namespace Double

theorem tooLong_of_integer? {x : Double} {n : Int} (h : x.integer? = some n) :
    tooLong n = false := by
  obtain ⟨k, hk, hless⟩ := exists_natAbs_lt_of_integer? h
  exact tooLong_eq_false_of_lt (hk.trans (by decide)) hless

theorem mark_mem_text (d : Shortest.Scientific) : '.' ∈ d.text.toList ∨ 'e' ∈ d.text.toList := by
  rw [Shortest.Scientific.text]
  split
  · left
    rw [Shortest.Scientific.plain]
    split
    · simp
    · split <;> simp
  · right
    rw [Shortest.Scientific.withExponent]
    simp

theorem mark_mem_text_finite (negative : Bool) (rank : Fin ranks) :
    '.' ∈ (finite negative rank).text.toList ∨ 'e' ∈ (finite negative rank).text.toList := by
  have hmagnitude : ∀ magnitude : String, ('.' ∈ magnitude.toList ∨ 'e' ∈ magnitude.toList) →
      '.' ∈ (if negative then "-" ++ magnitude else magnitude).toList ∨
        'e' ∈ (if negative then "-" ++ magnitude else magnitude).toList := by
    intro magnitude h
    cases negative with
    | false => exact h
    | true => simpa using h
  rw [text]
  refine hmagnitude _ ?_
  split
  · exact .inl (by decide)
  · exact mark_mem_text _

end Double

theorem mem_decimalText {n : Int} {c : Char} (h : c ∈ (decimalText n).toList) :
    c = '-' ∨ c.isDigit = true := by
  have hdigits : c ∈ (decimalDigits n.natAbs).toList → c.isDigit = true := by
    rw [decimalDigits, String.toList_ofList]
    exact Spelling.isDigit_of_mem_toDigits
  rw [decimalText] at h
  split at h
  · rw [String.toList_append, List.mem_append] at h
    exact h.imp (fun hminus => List.mem_singleton.1 hminus) hdigits
  · exact .inr (hdigits h)

theorem Double.text_ne_decimalText (negative : Bool) (rank : Fin ranks) (n : Int) :
    (finite negative rank).text ≠ decimalText n := by
  intro h
  have hmark := mark_mem_text_finite negative rank
  rw [h] at hmark
  rcases hmark with hmark | hmark
  · exact absurd (mem_decimalText hmark) (by decide)
  · exact absurd (mem_decimalText hmark) (by decide)

end Referral
