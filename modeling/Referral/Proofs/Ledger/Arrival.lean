import Referral.Proofs.Ledger.Listing
import Referral.Proofs.Ledger.Refusal

namespace Referral

def Receipt.row? : Receipt → Option Entry
  | created e => some e
  | reversed _ against => some against
  | duplicate _ | confirmed _ | paid _ => none

/-- The readings from one on to another rise, and are all of the same kind. -/
def Source.RisesWithin (source : Source) (first last : Nat) : Prop :=
  ∀ ⦃m n⦄, first < m → m < n → n ≤ last →
    (source.reading m).isAware = (source.reading n).isAware ∧
      (source.reading m).instant < (source.reading n).instant

namespace Entry

def lasting (e : Entry) : Entry := e.withStatus .pending e.createdAt

theorem became_iff {e e' : Entry} : e.Became e' ↔ e.lasting = e'.lasting := by
  obtain ⟨id, userId, kind, amount, currency, status, reference, description, metadata, created,
    updated⟩ := e
  obtain ⟨id', userId', kind', amount', currency', status', reference', description', metadata',
    created', updated'⟩ := e'
  simp only [Became, lasting, withStatus, mk.injEq]
  constructor
  · rintro ⟨rfl, rfl, rfl, rfl, rfl, -, rfl, rfl, rfl, rfl, -⟩
    simp
  · rintro ⟨rfl, rfl, rfl, rfl, rfl, -, rfl, rfl, rfl, rfl, -⟩
    simp

theorem forall₂_became_iff {rows rows' : List Entry} :
    List.Forall₂ Became rows rows' ↔ rows.map lasting = rows'.map lasting := by
  have hbecame : Became = fun e e' => e.lasting = e'.lasting :=
    funext₂ fun _ _ => propext became_iff
  rw [← List.forall₂_eq_eq_eq, List.forall₂_map_left_iff, List.forall₂_map_right_iff, hbecame]

end Entry

namespace Ledger

variable {config : LedgerConfig} {s t : LedgerState}

/-- The rows that were added, in order, by the commands that were not refused. -/
def arrivals (history : List Exchange) : List Entry :=
  history.filterMap fun exchange => exchange.2.toOption.bind Receipt.row?

structure Arrived (config : LedgerConfig) (first : Nat) (rows : List Entry) (t : LedgerState) :
    Prop where
  stored : rows.map Entry.lasting = t.store.list.map Entry.lasting
  made : ∃ readings : List Nat, rows.map (·.createdAt) = readings.map config.source.reading ∧
    readings.Pairwise (· < ·) ∧ ∀ n ∈ readings, first < n ∧ n ≤ t.supply.readings

variable {first : Nat} {rows : List Entry}

theorem Arrived.same (h : Arrived config first rows s)
    (hlist : t.store.list.map Entry.lasting = s.store.list.map Entry.lasting)
    (hlater : s.supply.readings ≤ t.supply.readings) : Arrived config first rows t := by
  obtain ⟨hstored, readings, hmade, hrising, hbounds⟩ := h
  exact ⟨hstored.trans hlist.symm, readings, hmade, hrising, fun n hn =>
    ⟨(hbounds n hn).1, (hbounds n hn).2.trans hlater⟩⟩

theorem Arrived.more (h : Arrived config first rows s) {e : Entry}
    (hlist : t.store.list.map Entry.lasting = s.store.list.map Entry.lasting ++ [e.lasting])
    (hcreated : e.createdAt = s.nextTime config) (hfirst : first ≤ s.supply.readings)
    (hlater : t.supply.readings = s.supply.readings + 1) :
    Arrived config first (rows ++ [e]) t := by
  obtain ⟨hstored, readings, hmade, hrising, hbounds⟩ := h
  refine ⟨?_, readings ++ [s.supply.readings + 1], ?_, ?_, ?_⟩
  · rw [List.map_append, hstored, hlist]
    rfl
  · rw [List.map_append, List.map_append, hmade, List.map_singleton, hcreated]
    rfl
  · refine List.pairwise_append.2 ⟨hrising, List.pairwise_singleton _ _, fun n hn m hm => ?_⟩
    rw [List.mem_singleton.1 hm]
    exact Nat.lt_succ_of_le (hbounds n hn).2
  · intro n hn
    rcases List.mem_append.1 hn with hn | hn
    · exact ⟨(hbounds n hn).1, (hbounds n hn).2.trans (hlater ▸ Nat.le_succ _)⟩
    · rw [List.mem_singleton.1 hn, hlater]
      exact ⟨Nat.lt_succ_of_le hfirst, Nat.le_refl _⟩

theorem lasting_moved (hs : s.store.Indexed) {e : Entry} (he : e ∈ s.store.list) (status : Status)
    (at_ : Timestamp) :
    (replaceBy (e.withStatus status at_) s.store.list).map Entry.lasting =
      s.store.list.map Entry.lasting :=
  map_replaceBy_withStatus hs Entry.lasting (fun _ _ _ => rfl) he status at_

theorem Answers.arrived {c : Command} {receipt : Receipt} (h : Answers config s c receipt)
    (hs : Consistent config s) (hd : config.source.Distinct) (hfirst : first ≤ s.supply.readings)
    (harrived : Arrived config first rows s) :
    Arrived config first (rows ++ receipt.row?.toList) (receipt.applyTo s) := by
  have hlist := h.list_applyTo hs hd
  cases h with
  | created asks free =>
      refine harrived.more ?_ rfl hfirst rfl
      rw [hlist]
      exact List.map_append
  | duplicate asks stored same =>
      rw [Receipt.row?, Option.toList_none, List.append_nil]
      exact harrived
  | confirmed stored standing | paid stored standing =>
      rw [Receipt.row?, Option.toList_none, List.append_nil]
      refine harrived.same ?_ (Nat.le_succ _)
      rw [hlist]
      exact lasting_moved hs.indexed stored _ _
  | reversed reason stored live free =>
      refine harrived.more ?_ rfl hfirst rfl
      rw [hlist, Receipt.listIn, List.map_append, lasting_moved hs.indexed stored]
      rfl

theorem Step.arrived {c : Command} {result : Except LedgerError Receipt}
    (h : Step config s c result t) (hs : Consistent config s) (hd : config.source.Distinct)
    (hfirst : first ≤ s.supply.readings) (hlater : s.supply.readings ≤ t.supply.readings)
    (harrived : Arrived config first rows s) :
    Arrived config first (rows ++ arrivals [(c, result)]) t := by
  cases h with
  | answered h =>
      have hrow : ∀ receipt : Receipt, arrivals [(c, .ok receipt)] = receipt.row?.toList := by
        intro receipt
        cases receipt <;> rfl
      rw [hrow]
      exact h.arrived hs hd hfirst harrived
  | refused fault supply more =>
      have hnone : arrivals [(c, .error fault)] = [] := rfl
      rw [hnone, List.append_nil]
      exact harrived.same rfl hlater

theorem arrived_after (hd : config.source.Distinct) (supply : Supply) (cs : List Command) :
    supply.readings ≤ (after config cs (start supply)).supply.readings ∧
      Arrived config supply.readings (arrivals (answers config cs (start supply)))
        (after config cs (start supply)) := by
  -- `run_induction` does not tell the readings, of which a refused command may have taken one.
  induction cs using List.reverseRecOn with
  | nil => exact ⟨Nat.le_refl _, rfl, [], rfl, .nil, fun _ hn => absurd hn List.not_mem_nil⟩
  | append_singleton cs c ih =>
      obtain ⟨hfirst, harrived⟩ := ih
      have hs : Consistent config (after config cs (start supply)) := consistent_after hd supply cs
      have hlater := (perform_ending config hs.quiet c).readings_le
      rw [after_append, answers_append, arrivals, List.filterMap_append, ← arrivals, ← arrivals]
      exact ⟨hfirst.trans hlater, (perform_step hs c).arrived hs hd hfirst hlater harrived⟩

theorem Lists.eq_reverse {entries listed : List Entry} (h : Lists entries listed)
    (hrising : entries.Pairwise fun a b => a.createdAt.instant < b.createdAt.instant) :
    listed = entries.reverse := by
  have hreverse : entries.reverse.Pairwise fun a b =>
      b.createdAt.instant ≤ a.createdAt.instant := by
    rw [List.pairwise_reverse]
    exact hrising.imp fun hlt => hlt.le
  have hinjective : (entries.map (·.createdAt.instant)).Nodup :=
    List.pairwise_map.2 (hrising.imp fun hlt => hlt.ne)
  refine List.Perm.eq_of_pairwise (fun a b ha hb hba hab => ?_) h.newest_first hreverse
    (h.perm.trans entries.reverse_perm.symm)
  exact List.inj_on_of_nodup_map hinjective (h.perm.subset ha) (List.mem_reverse.1 hb)
    (le_antisymm hab hba)

theorem comparable_of_pairwise {entries : List Entry}
    (h : entries.Pairwise fun a b => a.createdAt.isAware = b.createdAt.isAware) :
    comparable entries = true := by
  cases entries with
  | nil => rfl
  | cons e rest =>
      obtain ⟨hrest, -⟩ := List.pairwise_cons.1 h
      have hsame : ∀ x ∈ e :: rest, x.createdAt.isAware = e.createdAt.isAware :=
        List.forall_mem_cons.2 ⟨rfl, fun x hx => (hrest x hx).symm⟩
      rw [comparable, Bool.or_eq_true, List.all_eq_true, List.all_eq_true]
      cases haware : e.createdAt.isAware with
      | true => exact .inl fun x hx => (hsame x hx).trans haware
      | false => exact .inr fun x hx => by rw [hsame x hx, haware]; rfl

theorem Arrived.allEntries_eq (h : Arrived config first rows t)
    (hrising : config.source.RisesWithin first t.supply.readings) :
    allEntries t.store = .ok t.store.list.reverse := by
  obtain ⟨hstored, readings, hmade, hincreasing, hbounds⟩ := h
  have htimes : t.store.list.map (·.createdAt) = readings.map config.source.reading := by
    have hcreated : ∀ entries : List Entry,
        entries.map (·.createdAt) = (entries.map Entry.lasting).map (·.createdAt) := by
      intro entries
      rw [List.map_map]
      rfl
    rw [← hmade, hcreated, ← hstored, ← hcreated]
  have hpairs : t.store.list.Pairwise fun a b =>
      a.createdAt.isAware = b.createdAt.isAware ∧ a.createdAt.instant < b.createdAt.instant := by
    rw [← List.pairwise_map (f := Entry.createdAt)
      (R := fun a b : Timestamp => a.isAware = b.isAware ∧ a.instant < b.instant), htimes,
      List.pairwise_map]
    exact hincreasing.imp_of_mem fun {m n} hm hn hlt =>
      hrising (hbounds m hm).1 hlt (hbounds n hn).2
  obtain ⟨listed, hlisted, hlists⟩ :=
    exists_newestFirst (comparable_of_pairwise (hpairs.imp And.left))
  rw [allEntries, hlisted, hlists.eq_reverse (hpairs.imp And.right)]

/-- What is listed agrees with the balance. If the times of a user's entries have an order, they are
all listed, newest first and those of one instant as they were inserted. If the balance is found,
pages of any size are the list; it tells the count and the sum that each of them tells, and the time
of the first entry. If it is not, which amounts as rewards may have never lead to, no page is found
either. And where the clock has moved on at every reading, the entries of a run are listed in the
reverse of the order in which they were added. -/
theorem listings_agree :
    (∀ (s : Store) (userId : String), comparable (s.ofUser userId) = true →
      ∃ listed, userEntries s userId = .ok listed ∧ Lists (s.ofUser userId) listed ∧
        Paged s userId listed) ∧
    ∀ (config : LedgerConfig) (supply : Supply) (cs : List Command), config.source.Distinct →
      config.source.RisesWithin supply.readings
        (after config cs (start supply)).supply.readings →
      ∃ listed, allEntries (after config cs (start supply)).store = .ok listed ∧
        List.Forall₂ Entry.Became (arrivals (answers config cs (start supply))).reverse listed := by
  refine ⟨fun s userId h => exists_paged h, fun config supply cs hd hrising => ?_⟩
  obtain ⟨-, harrived⟩ := arrived_after hd supply cs
  refine ⟨_, harrived.allEntries_eq hrising, ?_⟩
  rw [List.forall₂_reverse_iff, Entry.forall₂_became_iff]
  exact harrived.stored

/-- Three entries, two of them of one instant, in pages of two; and a run in which a reward is asked
for twice, one that is not there is paid, and the reward is taken back. -/
theorem listings_agree_reversal :
    let later := { row "b" .debit .pending ⟨false, 2, 0⟩ with
      createdAt := ⟨⟨2026, 1, 2, by decide⟩, .midnight, some .utc⟩ }
    let s := stored [row "a" .credit .pending ⟨false, 5, 0⟩, later,
      row "c" .credit .pending ⟨false, 1, 0⟩]
    let cs := [.create (signup "ada"), .create (signup "bob"), .pay "none",
      .reverse "entry-00000000000000000000000000000001" none]
    comparable (s.ofUser "ada") = true ∧
      (∃ b listed, balance s "ada" none = .ok b ∧ userEntries s "ada" = .ok listed ∧
        b.totalEntries = 3 ∧ listed.head?.map (·.createdAt) = some later.createdAt ∧
        ∃ pages : List (List Entry), pages.flatten = listed ∧
          ∀ k : Nat, history s "ada" 2 (k * 2) = .ok ⟨"ada", pages.getD k [], 3, b.balance⟩) ∧
      counting.source.Distinct ∧ counting.source.RisesWithin 0 2 ∧
      (arrivals (answers counting cs (start .fresh))).length = 2 ∧
      ∃ listed, allEntries (after counting cs (start .fresh)).store = .ok listed ∧
        List.Forall₂ Entry.Became (arrivals (answers counting cs (start .fresh))).reverse
          listed := by
  intro later s cs
  obtain ⟨hpages, harrivals⟩ := listings_agree
  have hcomparable : comparable (s.ofUser "ada") = true := by decide +kernel
  have hread : (balance s "ada" none).toOption.map
      (fun b => (b.totalEntries, b.lastTransactionAt)) = some (3, some later.createdAt) := by
    decide +kernel
  have hrising : counting.source.RisesWithin 0 2 := by
    intro m n hm hmn hn
    obtain rfl : m = 1 := by omega
    obtain rfl : n = 2 := by omega
    decide +kernel
  have hreadings : (after counting cs (start .fresh)).supply.readings = 2 := by decide +kernel
  have hlength : (arrivals (answers counting cs (start .fresh))).length = 2 := by decide +kernel
  obtain ⟨listed, hlisted, -, hpaged⟩ := hpages s "ada" hcomparable
  refine ⟨hcomparable, ?_, distinct_counting_source, hrising, hlength, ?_⟩
  · cases hb : balance s "ada" none with
    | error fault => rw [hb] at hread; cases hread
    | ok b =>
        rw [hb] at hread
        obtain ⟨hcount, hlast⟩ := Prod.mk.inj (Option.some.inj hread)
        have hhead := (hpaged.last b hb).symm.trans hlast
        obtain ⟨pages, -, hflatten, hpage⟩ := hpaged.pages b hb 2 (by decide)
        refine ⟨b, listed, rfl, hlisted, hcount, hhead, pages, hflatten, ?_⟩
        rw [← hcount]
        exact hpage
  · refine harrivals counting .fresh cs distinct_counting_source ?_
    rw [hreadings]
    exact hrising

/-- An entry with an amount that has more digits before the point than a sum in cents can have is
listed, but on no page. -/
theorem listed_on_no_page :
    let e := row "a" .credit .pending ⟨false, 1, 30⟩
    let s := stored [e]
    comparable (s.ofUser "ada") = true ∧ userEntries s "ada" = .ok [e] ∧
      ¬ ∃ page, history s "ada" 1 0 = .ok page := by
  intro e s
  have hlisted : userEntries s "ada" = .ok [e] := by
    have hstored : s.ofUser "ada" = [e] := rfl
    rw [userEntries, hstored, newestFirst, List.mergeSort_singleton]
    rfl
  have hfails : (history s "ada" 1 0).isOk = false := by
    have hbalance : (balance s "ada" none).isOk = false := by decide +kernel
    cases hb : balance s "ada" none with
    | error fault =>
        exact congrArg Except.isOk ((history_eq hlisted 1 0).trans (congrArg (Except.map _) hb))
    | ok b => rw [hb] at hbalance; cases hbalance
  refine ⟨by decide +kernel, hlisted, ?_⟩
  rintro ⟨page, hpage⟩
  rw [hpage] at hfails
  cases hfails

end Ledger

end Referral
