import Mathlib.Algebra.BigOperators.Group.List.Basic
import Referral.Ledger.Balance
import Referral.Proofs.Ledger.Reversal
import Referral.Proofs.Number.Rational

namespace Referral

namespace Entry

def countsFor (e : Entry) (userId : String) (currency : Option String) : Bool :=
  currency.all (e.currency = ·) && e.userId = userId

def portion (e : Entry) (userId : String) (currency : Option String) : ℚ :=
  if e.countsFor userId currency then e.amount.toRat else 0

/-- The entry as it was made, unless it is reversed. -/
def standing? (e : Entry) : Option Entry :=
  if e.status = .reversed then none else some (e.withStatus .pending e.createdAt)

theorem standing?_of_live {e : Entry} (h : e.status ≠ .reversed) :
    e.standing? = some (e.withStatus .pending e.createdAt) :=
  if_neg h

end Entry

namespace Ledger

variable {s t : Store} {rows : List Entry}

def standing (rows : List Entry) : List Entry := rows.filterMap Entry.standing?

def exactBalance (s : Store) (userId : String) (currency : Option String) : ℚ :=
  (((counted s userId currency).filterMap contribution).map Decimal.toRat).sum

theorem counted_eq (s : Store) (userId : String) (currency : Option String) :
    counted s userId currency = s.list.filter (·.countsFor userId currency) :=
  List.filter_filter

theorem contribution_of_credit {e : Entry} (hlive : e.status ≠ .reversed)
    (hkind : e.kind = .credit) : contribution e = some e.amount := by
  rw [contribution, if_neg hlive, hkind]

theorem sum_counted {userId : String} {currency : Option String}
    (hcredit : ∀ e ∈ rows, e.status ≠ .reversed → e.kind = .credit) :
    (((rows.filter (·.countsFor userId currency)).filterMap contribution).map Decimal.toRat).sum =
      ((standing rows).map (·.portion userId currency)).sum := by
  induction rows with
  | nil => rfl
  | cons e rows ih =>
      have hrest := ih fun x hx => hcredit x (List.mem_cons_of_mem _ hx)
      rw [List.filter_cons, standing, List.filterMap_cons]
      by_cases hreversed : e.status = .reversed
      · have hnone : contribution e = none := if_pos hreversed
        rw [Entry.standing?, if_pos hreversed]
        split
        · rw [List.filterMap_cons, hnone]
          exact hrest
        · exact hrest
      · have hsome := contribution_of_credit hreversed (hcredit e List.mem_cons_self hreversed)
        rw [Entry.standing?_of_live hreversed, List.map_cons, List.sum_cons, ← standing, ← hrest]
        by_cases hcounts : e.countsFor userId currency = true
        · have hportion : (e.withStatus .pending e.createdAt).portion userId currency =
              e.amount.toRat := if_pos hcounts
          rw [if_pos hcounts, List.filterMap_cons, hsome, List.map_cons, List.sum_cons, hportion]
        · have hportion : (e.withStatus .pending e.createdAt).portion userId currency = 0 :=
            if_neg hcounts
          rw [if_neg hcounts, hportion, zero_add]

theorem exactBalance_eq (hcredit : ∀ e ∈ s.list, e.status ≠ .reversed → e.kind = .credit)
    (userId : String) (currency : Option String) :
    exactBalance s userId currency =
      ((standing s.list).map (·.portion userId currency)).sum := by
  rw [exactBalance, counted_eq, sum_counted hcredit]

theorem ids_standing_sublist (rows : List Entry) :
    ((standing rows).map (·.id)).Sublist (rows.map (·.id)) := by
  induction rows with
  | nil => exact .slnil
  | cons e rows ih =>
      rw [standing, List.filterMap_cons, Entry.standing?]
      by_cases hreversed : e.status = .reversed
      · rw [if_pos hreversed]
        exact ih.cons e.id
      · rw [if_neg hreversed]
        exact ih.cons_cons e.id

theorem sum_without (f : Entry → ℚ) (hids : (rows.map (·.id)).Nodup) {e : Entry} (he : e ∈ rows) :
    ((rows.filter (·.id ≠ e.id)).map f).sum + f e = (rows.map f).sum := by
  obtain ⟨xs, ys, rfl⟩ := List.append_of_mem he
  rw [List.map_append, List.map_cons] at hids
  obtain ⟨-, hys, hdisjoint⟩ := List.nodup_append.1 hids
  have hxs : xs.filter (·.id ≠ e.id) = xs := by
    refine List.filter_eq_self.2 fun x hx => decide_eq_true fun heq => ?_
    exact hdisjoint x.id (List.mem_map_of_mem hx) e.id List.mem_cons_self heq
  have hys : ys.filter (·.id ≠ e.id) = ys := by
    refine List.filter_eq_self.2 fun y hy => decide_eq_true fun heq => ?_
    exact (List.nodup_cons.1 hys).1 (heq ▸ List.mem_map_of_mem hy)
  rw [List.filter_append, hxs, List.filter_cons_of_neg (by simp), hys]
  simp only [List.map_append, List.map_cons, List.sum_append, List.sum_cons]
  rw [add_assoc, add_comm (f e)]

def view (e : Entry) : Option Decimal × Timestamp := (contribution e, e.createdAt)

def latest? : List Timestamp → Option Timestamp
  | [] => none
  | time :: rest => some (rest.foldl (fun m x => if m.instant < x.instant then x else m) time)

theorem newest?_createdAt (entries : List Entry) :
    (newest? entries).map (·.createdAt) = latest? (entries.map (·.createdAt)) := by
  cases entries with
  | nil => rfl
  | cons e rest =>
      rw [newest?, Option.map_some, List.map_cons, latest?, List.foldl_map]
      congr 1
      refine (List.foldl_hom Entry.createdAt fun m x => ?_).symm
      split <;> rfl

theorem contributions_eq (entries : List Entry) :
    entries.filterMap contribution = (entries.map view).filterMap Prod.fst := by
  rw [List.filterMap_map]
  rfl

theorem createdAt_eq (entries : List Entry) :
    entries.map (·.createdAt) = (entries.map view).map Prod.snd := by
  rw [List.map_map]
  rfl

theorem comparable_eq (entries : List Entry) :
    comparable entries = ((entries.map (·.createdAt)).all (·.isAware) ||
      (entries.map (·.createdAt)).all (!·.isAware)) := by
  rw [comparable, List.all_map, List.all_map]
  rfl

variable {userId : String} {currency : Option String}

theorem balance_eq_of_views
    (h : (counted t userId currency).map view = (counted s userId currency).map view) :
    balance t userId currency = balance s userId currency := by
  have hlength := congrArg List.length h
  have htimes := congrArg (List.map Prod.snd) h
  rw [List.length_map, List.length_map] at hlength
  rw [← createdAt_eq, ← createdAt_eq] at htimes
  have htotal : total (counted t userId currency) = total (counted s userId currency) := by
    rw [total, total, contributions_eq, contributions_eq, h]
  have hcomparable : comparable (counted t userId currency) =
      comparable (counted s userId currency) := by
    rw [comparable_eq, comparable_eq, htimes]
  have hnewest : (newest? (counted t userId currency)).map (·.createdAt) =
      (newest? (counted s userId currency)).map (·.createdAt) := by
    rw [newest?_createdAt, newest?_createdAt, htimes]
  rw [balance, balance]
  dsimp only
  rw [htotal, hcomparable, hlength, hnewest]

theorem exactBalance_eq_of_views
    (h : (counted t userId currency).map view = (counted s userId currency).map view) :
    exactBalance t userId currency = exactBalance s userId currency := by
  rw [exactBalance, exactBalance, contributions_eq, contributions_eq, h]

theorem balance_eq_of_ofUser (h : t.ofUser userId = s.ofUser userId) (currency : Option String) :
    balance t userId currency = balance s userId currency := by
  have hcounted : counted t userId currency = counted s userId currency := by
    rw [counted, counted, h]
  rw [balance, balance, hcounted]

theorem userEntries_eq_of_ofUser (h : t.ofUser userId = s.ofUser userId) :
    userEntries t userId = userEntries s userId := by
  rw [userEntries, userEntries, h]

theorem views_eq (s : Store) :
    (counted s userId currency).map view =
      ((s.list.map fun e => (e.countsFor userId currency, view e)).filter Prod.fst).map
        Prod.snd := by
  rw [counted_eq, List.filter_map, List.map_map]
  rfl

theorem views_moved (hs : s.Indexed) {e : Entry} (he : e ∈ s.list) (hlive : e.status ≠ .reversed)
    {status : Status} (hstatus : status ≠ .reversed) {at_ : Timestamp}
    (ht : t.list = replaceBy (e.withStatus status at_) s.list) :
    (counted t userId currency).map view = (counted s userId currency).map view := by
  rw [views_eq, views_eq, ht]
  congr 2
  refine map_replaceBy _ fun x hx hid => ?_
  have hsame : contribution (e.withStatus status at_) = contribution e := by
    rw [contribution, contribution, if_neg hlive]
    exact if_neg hstatus
  rw [hs.eq_of_id hx he hid, view, view, hsame]
  rfl

end Ledger

end Referral
