import Mathlib.Algebra.BigOperators.Group.List.Lemmas
import Referral.Ledger.Balance
import Referral.Proofs.Number.Cents

namespace Referral

/-- The number that the limits of rewards leave: twelve digits before the point and eight after. -/
def Decimal.WithinLimits (d : Decimal) : Prop :=
  0 ≤ d.toRat ∧ d.toRat < 10 ^ 12 ∧ ∃ k : ℤ, d.toRat * 10 ^ 8 = k

theorem Decimal.WithinLimits.isUnits {d : Decimal} (h : d.WithinLimits) :
    ∃ k, d.IsUnits k ∧ k.natAbs < 10 ^ 20 := by
  obtain ⟨hnonneg, hless, k, hk⟩ := h
  have hlow : (0 : ℚ) ≤ k := by
    rw [← hk]
    exact mul_nonneg hnonneg (by norm_num)
  have hhigh : (k : ℚ) < 10 ^ 20 := by
    rw [← hk]
    calc d.toRat * 10 ^ 8 < 10 ^ 12 * 10 ^ 8 := mul_lt_mul_of_pos_right hless (by norm_num)
      _ = 10 ^ 20 := by norm_num
  have hlow' : 0 ≤ k := by exact_mod_cast hlow
  have hhigh' : k < 10 ^ 20 := by exact_mod_cast hhigh
  exact ⟨k, hk, by omega⟩

/-- What the entry adds to a balance: credits count for, all else against, and what is reversed not
at all. -/
def Entry.signedAmount (e : Entry) : ℚ :=
  if e.status = .reversed then 0
  else
    match e.kind with
    | .credit => e.amount.toRat
    | .debit | .reversal => -e.amount.toRat

namespace Ledger

variable {entries : List Entry}

def signedSum (entries : List Entry) : ℚ := (entries.map Entry.signedAmount).sum

theorem contribution_cases (e : Entry) :
    (contribution e = none ∧ e.signedAmount = 0) ∨
      (contribution e = some e.amount ∧ e.signedAmount = e.amount.toRat) ∨
      (contribution e = some e.amount.neg ∧ e.signedAmount = -e.amount.toRat) := by
  rw [contribution, Entry.signedAmount]
  by_cases hreversed : e.status = .reversed
  · rw [if_pos hreversed, if_pos hreversed]
    exact .inl ⟨rfl, rfl⟩
  · rw [if_neg hreversed, if_neg hreversed]
    cases e.kind with
    | credit => exact .inr (.inl ⟨rfl, rfl⟩)
    | debit => exact .inr (.inr ⟨rfl, rfl⟩)
    | reversal => exact .inr (.inr ⟨rfl, rfl⟩)

theorem sum_contributions (entries : List Entry) :
    ((entries.filterMap contribution).map Decimal.toRat).sum = signedSum entries := by
  induction entries with
  | nil => rfl
  | cons e entries ih =>
      rw [signedSum, List.map_cons, List.sum_cons, ← signedSum, ← ih, List.filterMap_cons]
      rcases contribution_cases e with ⟨hpart, hsigned⟩ | ⟨hpart, hsigned⟩ | ⟨hpart, hsigned⟩
      · rw [hpart, hsigned, zero_add]
      · rw [hpart, hsigned, List.map_cons, List.sum_cons]
      · rw [hpart, hsigned, List.map_cons, List.sum_cons, Decimal.toRat_neg]

theorem isUnits_contribution {e : Entry} (he : e.amount.WithinLimits) {x : Decimal}
    (hx : contribution e = some x) : ∃ k, x.IsUnits k ∧ k.natAbs < 10 ^ 20 := by
  obtain ⟨k, hk, hless⟩ := he.isUnits
  rcases contribution_cases e with ⟨hpart, -⟩ | ⟨hpart, -⟩ | ⟨hpart, -⟩
  · rw [hpart] at hx
    cases hx
  · rw [hpart] at hx
    cases hx
    exact ⟨k, hk, hless⟩
  · rw [hpart] at hx
    cases hx
    exact ⟨-k, Decimal.isUnits_neg hk, by rwa [Int.natAbs_neg]⟩

theorem total_exact (hmany : entries.length ≤ 10 ^ 8)
    (hlimits : ∀ e ∈ entries, e.amount.WithinLimits) :
    ∃ d, total entries = .ok d ∧ d.toRat = signedSum entries ∧
      ∃ n, d.IsUnits n ∧ n.natAbs < 10 ^ 28 := by
  have hzero : zero.IsUnits 0 := by norm_num [Decimal.IsUnits, zero, Decimal.toRat_zero]
  have hparts : ∀ x ∈ entries.filterMap contribution, ∃ k, x.IsUnits k ∧ k.natAbs < 10 ^ 20 := by
    intro x hx
    obtain ⟨e, he, hpart⟩ := List.mem_filterMap.1 hx
    exact isUnits_contribution (hlimits e he) hpart
  have hroom : (0 : Int).natAbs + (entries.filterMap contribution).length * (10 ^ 20 - 1) <
      10 ^ 28 := by
    have hfewer := List.length_filterMap_le contribution entries
    omega
  obtain ⟨d, htotal, hvalue, hunits⟩ := Decimal.foldlM_sum_exact _ hzero hparts hroom
  refine ⟨d, htotal, ?_, hunits⟩
  rw [hvalue, sum_contributions, zero, Decimal.toRat_zero, zero_add]

theorem signedSum_perm {others : List Entry} (h : others.Perm entries) :
    signedSum others = signedSum entries :=
  (h.map _).sum_eq

theorem comparable_perm {others : List Entry} (h : others.Perm entries) :
    comparable others = comparable entries := by
  rw [comparable, comparable, h.all_eq, h.all_eq]

theorem balance_eq {s : Store} {userId : String} {currency : Option String} {sum cents : Decimal}
    (hsum : total (counted s userId currency) = .ok sum) (hcents : sum.toCents = .ok cents) :
    balance s userId currency =
      if comparable (counted s userId currency) then
        .ok ⟨userId, cents, currency, (counted s userId currency).length,
          (newest? (counted s userId currency)).map (·.createdAt)⟩
      else .error .mixedTimes := by
  rw [balance]
  dsimp only
  rw [hsum]
  cases comparable (counted s userId currency) with
  | true => simp [Except.mapError, bind, Except.bind, hcents, pure, Except.pure]
  | false => rfl

/-- Sums of entries lose nothing and balances round once, in whatever order the entries stand. -/
theorem balance_exact (hmany : entries.length ≤ 10 ^ 8)
    (hlimits : ∀ e ∈ entries, e.amount.WithinLimits) :
    (∀ n, ∃ d, total (entries.take n) = .ok d ∧ d.toRat = signedSum (entries.take n)) ∧
      (∃ sum cents, total entries = .ok sum ∧ sum.toCents = .ok cents ∧ cents.exponent = -2 ∧
        cents.toRat = inCents (signedSum entries)) ∧
      ∀ (s : Store) (userId : String) (currency : Option String),
        (counted s userId currency).Perm entries →
          if comparable entries then
            ∃ b, balance s userId currency = .ok b ∧ b.balance.exponent = -2 ∧
              b.balance.toRat = inCents (signedSum entries)
          else balance s userId currency = .error .mixedTimes := by
  have hcents : ∀ others : List Entry, others.Perm entries →
      ∃ sum cents, total others = .ok sum ∧ sum.toCents = .ok cents ∧ cents.exponent = -2 ∧
        cents.toRat = inCents (signedSum entries) := by
    intro others hperm
    obtain ⟨sum, hsum, hvalue, n, hunits, hless⟩ := total_exact (hperm.length_eq.trans_le hmany)
      fun e he => hlimits e (hperm.mem_iff.1 he)
    obtain ⟨cents, hcents, hrounded, hplaces⟩ := Decimal.toCents_exact hunits hless
    refine ⟨sum, cents, hsum, hcents, hplaces, ?_⟩
    rw [hrounded, hvalue, signedSum_perm hperm]
  refine ⟨fun n => ?_, hcents entries (.refl _), fun s userId currency hperm => ?_⟩
  · have hfewer : (entries.take n).length ≤ 10 ^ 8 := (List.length_take_le' _ _).trans hmany
    obtain ⟨d, hd, hvalue, -⟩ :=
      total_exact hfewer fun e he => hlimits e (List.mem_of_mem_take he)
    exact ⟨d, hd, hvalue⟩
  · obtain ⟨sum, cents, hsum, hcents, hplaces, hrounded⟩ := hcents _ hperm
    rw [balance_eq hsum hcents, comparable_perm hperm]
    split
    · exact ⟨_, rfl, hplaces, hrounded⟩
    · rfl

def noon : Timestamp := ⟨⟨2026, 1, 1, by decide⟩, ⟨12, 0, 0, 0, by decide⟩, some .utc⟩

def row (id : String) (kind : EntryKind) (status : Status) (amount : Decimal) : Entry :=
  ⟨id, "ada", kind, amount, "USD", status, id, none, [], noon, noon⟩

/-- Amounts written with many zeros, with exponents and with a sign on zero, that come to
`1004.875`. -/
def widelyWritten : List Entry :=
  [row "a" .credit .pending ⟨false, 5 * 10 ^ 31, -31⟩, row "b" .credit .paid ⟨false, 1, 3⟩,
    row "c" .debit .pending ⟨false, 0, -50⟩, row "d" .credit .confirmed ⟨false, 0, 50⟩,
    row "e" .reversal .reversed ⟨false, 7, 0⟩, row "f" .credit .pending ⟨true, 0, 0⟩,
    row "g" .debit .pending ⟨false, 12500000, -8⟩]

def stored (entries : List Entry) : Store :=
  entries.foldl (fun s e => s.writeEntry e.id e) .empty

theorem balance_exact_widelyWritten :
    widelyWritten.length ≤ 10 ^ 8 ∧ (∀ e ∈ widelyWritten, e.amount.WithinLimits) ∧
      signedSum widelyWritten = 1004 + 875 / 1000 ∧
      (counted (stored widelyWritten.reverse) "ada" none).Perm widelyWritten ∧
      ∃ b, balance (stored widelyWritten.reverse) "ada" none = .ok b ∧
        b.balance.toRat = 1004 + 88 / 100 := by
  have hmany : widelyWritten.length ≤ 10 ^ 8 := by decide
  have hlimits : ∀ e ∈ widelyWritten, e.amount.WithinLimits := by
    intro e he
    simp only [widelyWritten, List.mem_cons, List.not_mem_nil, or_false] at he
    rcases he with rfl | rfl | rfl | rfl | rfl | rfl | rfl
    · exact ⟨by decide +kernel, by decide +kernel, 500000000, by decide +kernel⟩
    · exact ⟨by decide +kernel, by decide +kernel, 100000000000, by decide +kernel⟩
    · exact ⟨by decide +kernel, by decide +kernel, 0, by decide +kernel⟩
    · exact ⟨by decide +kernel, by decide +kernel, 0, by decide +kernel⟩
    · exact ⟨by decide +kernel, by decide +kernel, 700000000, by decide +kernel⟩
    · exact ⟨by decide +kernel, by decide +kernel, 0, by decide +kernel⟩
    · exact ⟨by decide +kernel, by decide +kernel, 12500000, by decide +kernel⟩
  have hsum : signedSum widelyWritten = 1004 + 875 / 1000 := by decide +kernel
  have hrounded : inCents (1004 + 875 / 1000) = 1004 + 88 / 100 := by norm_num [inCents]
  have hperm : (counted (stored widelyWritten.reverse) "ada" none).Perm widelyWritten :=
    List.reverse_perm widelyWritten
  obtain ⟨-, -, hbalance⟩ := balance_exact hmany hlimits
  obtain ⟨b, hb, -, hvalue⟩ := hbalance _ "ada" none hperm
  exact ⟨hmany, hlimits, hsum, hperm, b, hb, by rw [hvalue, hsum, hrounded]⟩

end Ledger

end Referral
