import Referral.Proofs.Ledger.Total

namespace Referral

namespace Ledger

variable {s : Store} {userId : String} {entries listed : List Entry}

def madeAt (instant : Int) (entries : List Entry) : List Entry :=
  entries.filter (·.createdAt.instant = instant)

/-- All of the entries, newest first; those of one instant stay in order. -/
structure Lists (entries listed : List Entry) : Prop where
  perm : listed.Perm entries
  newest_first : listed.Pairwise fun a b => b.createdAt.instant ≤ a.createdAt.instant
  stable : ∀ instant, madeAt instant listed = madeAt instant entries

theorem exists_newestFirst (h : comparable entries = true) :
    ∃ listed, newestFirst entries = .ok listed ∧ Lists entries listed := by
  let notOlder (a b : Entry) : Bool := b.createdAt.instant ≤ a.createdAt.instant
  have htrans : ∀ a b c, notOlder a b = true → notOlder b c = true → notOlder a c = true := by
    intro a b c hab hbc
    exact decide_eq_true ((of_decide_eq_true hbc).trans (of_decide_eq_true hab))
  have htotal : ∀ a b, (notOlder a b || notOlder b a) = true := by
    intro a b
    rw [Bool.or_eq_true, decide_eq_true_eq, decide_eq_true_eq]
    exact Int.le_total _ _
  have hperm : (entries.mergeSort notOlder).Perm entries := List.mergeSort_perm _ _
  have hlisted : newestFirst entries = .ok (entries.mergeSort notOlder) := by
    rw [newestFirst, if_pos h]
    rfl
  refine ⟨_, hlisted, hperm, ?_, fun instant => ?_⟩
  · exact (List.pairwise_mergeSort htrans htotal entries).imp of_decide_eq_true
  · -- Entries of one instant are sorted as they are, and sorting keeps what is sorted in order.
    have hmade : ∀ x ∈ madeAt instant entries, x.createdAt.instant = instant := fun x hx =>
      of_decide_eq_true (List.mem_filter.1 hx).2
    have hsorted : (madeAt instant entries).Pairwise fun a b => notOlder a b = true :=
      List.pairwise_of_forall_mem_list fun a ha b hb =>
        decide_eq_true ((hmade a ha).trans (hmade b hb).symm).ge
    have hkept : (madeAt instant entries).Sublist (entries.mergeSort notOlder) :=
      List.sublist_mergeSort htrans htotal hsorted List.filter_sublist
    have hfiltered := hkept.filter (·.createdAt.instant = instant)
    rw [madeAt, List.filter_filter] at hfiltered
    simp only [Bool.and_self] at hfiltered
    exact (hfiltered.eq_of_length (hperm.filter _).length_eq.symm).symm

def newer (m x : Entry) : Entry := if m.createdAt.instant < x.createdAt.instant then x else m

theorem foldl_newer (m : Entry) (rest : List Entry) :
    (∀ x ∈ m :: rest, x.createdAt.instant ≤ (rest.foldl newer m).createdAt.instant) ∧
      (madeAt (rest.foldl newer m).createdAt.instant (m :: rest)).head? =
        some (rest.foldl newer m) := by
  induction rest generalizing m with
  | nil => simp [madeAt]
  | cons x rest ih =>
      obtain ⟨hnewest, hfirst⟩ := ih (newer m x)
      rw [List.foldl_cons]
      generalize rest.foldl newer (newer m x) = e at hnewest hfirst
      rw [List.forall_mem_cons] at hnewest
      by_cases h : m.createdAt.instant < x.createdAt.instant
      · rw [newer, if_pos h] at hnewest hfirst
        refine ⟨?_, ?_⟩
        · rw [List.forall_mem_cons, List.forall_mem_cons]
          exact ⟨(h.trans_le hnewest.1).le, hnewest⟩
        · have hm : ¬ m.createdAt.instant = e.createdAt.instant := (h.trans_le hnewest.1).ne
          rw [madeAt, List.filter_cons_of_neg (by simpa using hm)]
          exact hfirst
      · rw [newer, if_neg h] at hnewest hfirst
        have hx : x.createdAt.instant ≤ m.createdAt.instant := Int.not_lt.1 h
        refine ⟨?_, ?_⟩
        · rw [List.forall_mem_cons, List.forall_mem_cons]
          exact ⟨hnewest.1, hx.trans hnewest.1, hnewest.2⟩
        · by_cases hm : m.createdAt.instant = e.createdAt.instant
          · rw [madeAt, List.filter_cons_of_pos (by simpa using hm)] at hfirst ⊢
            exact hfirst
          · have hx' : ¬ x.createdAt.instant = e.createdAt.instant :=
              (hx.trans_lt (hnewest.1.lt_of_ne hm)).ne
            rw [madeAt, List.filter_cons_of_neg (by simpa using hm)] at hfirst
            rw [madeAt, List.filter_cons_of_neg (by simpa using hm),
              List.filter_cons_of_neg (by simpa using hx')]
            exact hfirst

theorem Lists.head?_eq (h : Lists entries listed) : listed.head? = newest? entries := by
  obtain ⟨hperm, hsorted, hstable⟩ := h
  cases entries with
  | nil => rw [hperm.eq_nil]; rfl
  | cons m rest =>
      obtain ⟨hnewest, hfirst⟩ := foldl_newer m rest
      have hnewest? : newest? (m :: rest) = some (rest.foldl newer m) := rfl
      generalize rest.foldl newer m = e at hnewest hfirst hnewest?
      have he : e ∈ listed := by
        have hmade : e ∈ madeAt e.createdAt.instant (m :: rest) := List.mem_of_mem_head? hfirst
        rw [← hstable] at hmade
        exact (List.mem_filter.1 hmade).1
      cases listed with
      | nil => cases he
      | cons x others =>
          have hx : x.createdAt.instant = e.createdAt.instant := by
            refine le_antisymm (hnewest x (hperm.subset List.mem_cons_self)) ?_
            rcases List.mem_cons.1 he with rfl | he
            · exact le_rfl
            · exact (List.pairwise_cons.1 hsorted).1 e he
          rw [hnewest?, ← hfirst, ← hstable, madeAt, List.filter_cons_of_pos (by simpa using hx)]
          rfl

/-- A list is cut into pages, none of them empty, so that the `k`-th is what stands there, and past
the last of them nothing does. -/
theorem exists_pages {α : Type} {limit : Nat} (hlimit : 0 < limit) : ∀ listed : List α,
    ∃ pages : List (List α), [] ∉ pages ∧ pages.flatten = listed ∧
      ∀ k, pages.getD k [] = (listed.drop (k * limit)).take limit
  | [] => ⟨[], List.not_mem_nil, rfl, by simp⟩
  | x :: rest => by
      obtain ⟨pages, hfull, hflatten, hpage⟩ := exists_pages hlimit ((x :: rest).drop limit)
      refine ⟨(x :: rest).take limit :: pages, ?_, ?_, fun k => ?_⟩
      · rw [List.mem_cons, not_or]
        refine ⟨fun h => ?_, hfull⟩
        rcases List.take_eq_nil_iff.1 h.symm with h | h
        · omega
        · cases h
      · rw [List.flatten_cons, hflatten, List.take_append_drop]
      · cases k with
        | zero => simp
        | succ k =>
            rw [List.getD_cons_succ, hpage, List.drop_drop, Nat.succ_mul, Nat.add_comm limit]
termination_by listed => listed.length
decreasing_by
  rw [List.length_drop, List.length_cons]
  omega

theorem history_eq (hlisted : userEntries s userId = .ok listed) (limit offset : Nat) :
    history s userId limit offset = (balance s userId none).map fun b =>
      ⟨userId, (listed.drop offset).take limit, listed.length, b.balance⟩ := by
  have hpage : (decide ((limit : Int) < 0) || decide ((offset : Int) < 0)) = false := by simp
  rw [history, hpage, hlisted]
  cases balance s userId none <;> rfl

theorem counted_none (s : Store) (userId : String) : counted s userId none = s.ofUser userId := by
  rw [counted]
  exact List.filter_eq_self.2 fun _ _ => rfl

theorem balance_of_comparable (h : comparable (s.ofUser userId) = true) :
    balance s userId none =
      (((total (s.ofUser userId)).bind Decimal.toCents).mapError .sum).map fun cents =>
        ⟨userId, cents, none, (s.ofUser userId).length,
          (newest? (s.ofUser userId)).map (·.createdAt)⟩ := by
  rw [balance]
  dsimp only
  rw [counted_none, h]
  cases total (s.ofUser userId) with
  | error fault => rfl
  | ok sum =>
      cases hcents : sum.toCents <;>
        simp [Except.mapError, bind, Except.bind, hcents, pure, Except.pure, Except.map]

theorem exists_balance (h : comparable (s.ofUser userId) = true)
    (hmany : (s.ofUser userId).length ≤ 10 ^ 8)
    (hlimits : ∀ e ∈ s.ofUser userId, e.amount.WithinLimits) :
    ∃ b, balance s userId none = .ok b := by
  obtain ⟨sum, hsum, -, n, hunits, hless⟩ := total_exact hmany hlimits
  obtain ⟨cents, hcents, -⟩ := Decimal.toCents_exact hunits hless
  have hfound : (total (s.ofUser userId)).bind Decimal.toCents = .ok cents := by
    rw [hsum]
    exact hcents
  rw [balance_of_comparable h, hfound]
  exact ⟨_, rfl⟩

/-- What the balance and the pages tell of the entries that are listed of a user. -/
structure Paged (s : Store) (userId : String) (listed : List Entry) : Prop where
  found : (s.ofUser userId).length ≤ 10 ^ 8 → (∀ e ∈ s.ofUser userId, e.amount.WithinLimits) →
    ∃ b, balance s userId none = .ok b
  missing : ∀ fault, balance s userId none = .error fault → (∃ f, fault = .sum f) ∧
    ∀ limit offset : Int, 0 ≤ limit → 0 ≤ offset → history s userId limit offset = .error fault
  count : ∀ b, balance s userId none = .ok b → b.totalEntries = listed.length
  last : ∀ b, balance s userId none = .ok b →
    b.lastTransactionAt = listed.head?.map (·.createdAt)
  pages : ∀ b, balance s userId none = .ok b → ∀ limit : Int, 1 ≤ limit →
    ∃ pages : List (List Entry), [] ∉ pages ∧ pages.flatten = listed ∧
      ∀ k : Nat, history s userId limit (k * limit) =
        .ok ⟨userId, pages.getD k [], b.totalEntries, b.balance⟩

theorem exists_paged (h : comparable (s.ofUser userId) = true) :
    ∃ listed, userEntries s userId = .ok listed ∧ Lists (s.ofUser userId) listed ∧
      Paged s userId listed := by
  obtain ⟨listed, hlisted, hlists⟩ := exists_newestFirst h
  refine ⟨listed, hlisted, hlists, ?_⟩
  have hbalance := balance_of_comparable h
  cases hcents : (total (s.ofUser userId)).bind Decimal.toCents with
  | error f =>
      have hmissing : balance s userId none = .error (.sum f) := by rw [hbalance, hcents]; rfl
      have hnone : ∀ b, balance s userId none ≠ .ok b := by
        rw [hmissing]
        exact fun b hb => by cases hb
      refine ⟨exists_balance h, fun fault hfault => ?_, fun b hb => absurd hb (hnone b),
        fun b hb => absurd hb (hnone b), fun b hb => absurd hb (hnone b)⟩
      refine ⟨⟨f, Except.error.inj (hfault.symm.trans hmissing)⟩, ?_⟩
      intro limit offset hlimit hoffset
      obtain ⟨limit, rfl⟩ := Int.eq_ofNat_of_zero_le hlimit
      obtain ⟨offset, rfl⟩ := Int.eq_ofNat_of_zero_le hoffset
      rw [history_eq hlisted, hfault]
      rfl
  | ok cents =>
      rw [hcents] at hbalance
      have hlength : (s.ofUser userId).length = listed.length := hlists.perm.length_eq.symm
      refine ⟨exists_balance h, fun fault hfault => ?_, fun b hb => ?_, fun b hb => ?_,
        fun b hb limit hlimit => ?_⟩
      · cases hbalance.symm.trans hfault
      · cases hbalance.symm.trans hb
        exact hlength
      · cases hbalance.symm.trans hb
        rw [hlists.head?_eq]
      · obtain ⟨limit, rfl⟩ := Int.eq_ofNat_of_zero_le (Int.le_of_lt hlimit)
        have hpos : 0 < limit := by omega
        obtain ⟨pages, hfull, hflatten, hpage⟩ := exists_pages hpos listed
        refine ⟨pages, hfull, hflatten, fun k => ?_⟩
        cases hbalance.symm.trans hb
        rw [← Int.natCast_mul, history_eq hlisted, hb, hpage, hlength]
        rfl

end Ledger

end Referral
