import Mathlib.Algebra.Order.BigOperators.Group.List
import Referral.Proofs.Ledger.Request
import Referral.Proofs.Ledger.Standing

namespace Referral.Ledger

variable {config : LedgerConfig} {s t : LedgerState}

/-- What a user has by the history of the ledger. -/
def owed (history : List Exchange) (userId : String) (currency : Option String) : ℚ :=
  ((outstanding history).map (·.portion userId currency)).sum

theorem filter_replaceBy {p : Entry → Bool} {e : Entry} {rows : List Entry} (hp : p e = false)
    (h : ∀ x ∈ rows, x.id = e.id → p x = false) : (replaceBy e rows).filter p = rows.filter p := by
  induction rows with
  | nil => rfl
  | cons x rows ih =>
      have hrest := ih fun y hy => h y (List.mem_cons_of_mem _ hy)
      rw [replaceBy, List.map_cons, ← replaceBy]
      by_cases hid : x.id = e.id
      · have hx := h x List.mem_cons_self hid
        rw [if_pos hid, List.filter_cons_of_neg (by simp [hp]),
          List.filter_cons_of_neg (by simp [hx]), hrest]
      · rw [if_neg hid, List.filter_cons, List.filter_cons, hrest]

theorem ofUser_moved {rows : List Entry} (hids : (rows.map (·.id)).Nodup) {e : Entry}
    (he : e ∈ rows) {userId : String} (hother : userId ≠ e.userId) (status : Status)
    (at_ : Timestamp) : (replaceBy (e.withStatus status at_) rows).filter (·.userId = userId) =
      rows.filter (·.userId = userId) := by
  refine filter_replaceBy (decide_eq_false (Ne.symm hother)) fun x hx hid => ?_
  rw [List.inj_on_of_nodup_map hids hx he hid]
  exact decide_eq_false (Ne.symm hother)

theorem ofUser_added (rows : List Entry) {e : Entry} {userId : String}
    (hother : userId ≠ e.userId) :
    (rows ++ [e]).filter (·.userId = userId) = rows.filter (·.userId = userId) := by
  rw [List.filter_append, List.filter_cons_of_neg (by simpa using Ne.symm hother),
    List.filter_nil, List.append_nil]

theorem Answers.ofUser_applyTo {c : Command} {receipt : Receipt} (h : Answers config s c receipt)
    (hs : Consistent config s) (hd : config.source.Distinct) {userId : String}
    (hother : userId ≠ receipt.entry.userId) :
    (receipt.applyTo s).store.ofUser userId = s.store.ofUser userId := by
  have hids := hs.indexed.nodup_ids
  rw [Store.ofUser, Store.ofUser, h.list_applyTo hs hd]
  cases h with
  | created asks free => exact ofUser_added _ hother
  | duplicate asks stored same => rfl
  | confirmed stored pending => exact ofUser_moved hids stored hother _ _
  | paid stored confirmed => exact ofUser_moved hids stored hother _ _
  | reversed reason stored live free =>
      rw [Receipt.listIn, ofUser_added, ofUser_moved hids stored hother]
      exact hother

theorem exactBalance_of_paired (hp : Paired s.store.list) (userId : String)
    (currency : Option String) : exactBalance s.store userId currency =
      ((standing s.store.list).map (·.portion userId currency)).sum :=
  exactBalance_eq (fun _ he hlive => (hp.credit_of_live he hlive).1) userId currency

theorem Answers.exactBalance_applyTo {c : Command} {receipt : Receipt}
    (h : Answers config s c receipt) (hs : Consistent config s) (hd : config.source.Distinct)
    (hp : Paired s.store.list) (userId : String) (currency : Option String) :
    exactBalance (receipt.applyTo s).store userId currency =
      (((standing s.store.list).filter fun e => !takesBack e.id (c, .ok receipt)).map
        (·.portion userId currency)).sum + owed [(c, .ok receipt)] userId currency := by
  have hlist := h.list_applyTo hs hd
  have hpaired : Paired (receipt.applyTo s).store.list := hlist ▸ h.paired hs hp
  rw [exactBalance_of_paired hpaired, hlist, h.standing_listIn hs, List.map_append,
    List.sum_append, owed]

theorem exactBalance_created (hs : Consistent config s) (hd : config.source.Distinct)
    (hp : Paired s.store.list) {c : Command} {e : Entry} (h : Answers config s c (.created e))
    (userId : String) (currency : Option String) :
    exactBalance ((Receipt.created e).applyTo s).store userId currency =
      exactBalance s.store userId currency + e.portion userId currency := by
  have hnone : ∀ id, takesBack id (c, .ok (.created e)) = false := by
    cases h with
    | created asks free => exact fun id => takesBack_of_request asks id _
  rw [h.exactBalance_applyTo hs hd hp, exactBalance_of_paired hp]
  simp [hnone, owed, outstanding]

theorem exactBalance_reversed (hs : Consistent config s) (hd : config.source.Distinct)
    (hp : Paired s.store.list) {e : Entry} (he : e ∈ s.store.list) (hlive : e.status ≠ .reversed)
    {reason : Option String} {updated against : Entry}
    (h : Answers config s (.reverse e.id reason) (.reversed updated against))
    (userId : String) (currency : Option String) :
    exactBalance ((Receipt.reversed updated against).applyTo s).store userId currency =
      exactBalance s.store userId currency - e.portion userId currency := by
  have hids := (ids_standing_sublist s.store.list).nodup hs.indexed.nodup_ids
  have hmem : e.withStatus .pending e.createdAt ∈ standing s.store.list :=
    List.mem_filterMap.2 ⟨e, he, Entry.standing?_of_live hlive⟩
  have hwithout := sum_without (·.portion userId currency) hids hmem
  have hfilter : (standing s.store.list).filter
      (fun x => !takesBack x.id (.reverse e.id reason, .ok (.reversed updated against))) =
      (standing s.store.list).filter (·.id ≠ e.id) :=
    List.filter_congr fun x _ => by simp [takesBack, eq_comm]
  -- The row against the entry does not stand, so nothing takes its place.
  have hnothing : owed [(.reverse e.id reason, .ok (.reversed updated against))] userId currency =
      0 := rfl
  rw [h.exactBalance_applyTo hs hd hp, exactBalance_of_paired hp, hfilter, hnothing, add_zero]
  exact eq_sub_of_add_eq hwithout

/-- What one command does to balances. -/
structure Accounts (config : LedgerConfig) (s : LedgerState) (c : Command)
    (result : Except LedgerError Receipt) (t : LedgerState) : Prop where
  created : ∀ e, result = .ok (.created e) → ∃ request, c.request? = some request ∧
    e.userId = request.userId ∧ e.amount = request.amount ∧
    e.currency = filled request.currency config.defaultCurrency ∧
    ∀ userId currency, exactBalance t.store userId currency =
      exactBalance s.store userId currency + e.portion userId currency
  reversed : ∀ id reason receipt, c = .reverse id reason → result = .ok receipt →
    ∃ e, s.store.find? id = some e ∧ ∀ userId currency,
      exactBalance t.store userId currency =
        exactBalance s.store userId currency - e.portion userId currency
  settled : ∀ id, c = .confirm id ∨ c = .pay id → ∀ userId currency,
    exactBalance t.store userId currency = exactBalance s.store userId currency ∧
      balance t.store userId currency = balance s.store userId currency
  duplicate : ∀ e, result = .ok (.duplicate e) → t = s
  refused : ∀ fault, result = .error fault → t.store = s.store
  apart : ∀ receipt, result = .ok receipt → ∀ userId, userId ≠ receipt.entry.userId →
    t.store.ofUser userId = s.store.ofUser userId ∧
      userEntries t.store userId = userEntries s.store userId ∧
      ∀ currency, balance t.store userId currency = balance s.store userId currency

theorem Answers.views_settled {c : Command} {receipt : Receipt} (h : Answers config s c receipt)
    (hs : Consistent config s) {id : String} (hc : c = .confirm id ∨ c = .pay id)
    (userId : String) (currency : Option String) :
    (counted (receipt.applyTo s).store userId currency).map view =
      (counted s.store userId currency).map view := by
  cases h with
  | created asks free => rcases hc with rfl | rfl <;> cases asks
  | duplicate asks stored same => rcases hc with rfl | rfl <;> cases asks
  | confirmed stored pending =>
      exact views_moved hs.indexed stored (by simp [pending]) (by decide)
        (list_moved hs.indexed stored _ _)
  | paid stored confirmed =>
      exact views_moved hs.indexed stored (by simp [confirmed]) (by decide)
        (list_moved hs.indexed stored _ _)
  | reversed reason stored live free => rcases hc with hc | hc <;> cases hc

theorem Answers.accounts {c : Command} {receipt : Receipt} (h : Answers config s c receipt)
    (hs : Consistent config s) (hd : config.source.Distinct) (hp : Paired s.store.list) :
    Accounts config s c (.ok receipt) (receipt.applyTo s) where
  created e he := by
    cases he
    have hbalance := exactBalance_created hs hd hp h
    cases h with
    | created asks free => exact ⟨_, asks, rfl, rfl, rfl, hbalance⟩
  reversed id reason other hc hother := by
    cases hc
    cases hother
    have h' := h
    cases h with
    | reversed reason stored live free =>
        exact ⟨_, (hs.indexed.find?_eq_some_iff _ _).2 ⟨stored, rfl⟩,
          exactBalance_reversed hs hd hp stored live h'⟩
    | created asks free => cases asks
    | duplicate asks stored same => cases asks
  settled id hc userId currency := by
    have hviews := h.views_settled hs hc userId currency
    exact ⟨exactBalance_eq_of_views hviews, balance_eq_of_views hviews⟩
  duplicate e he := by
    cases he
    rfl
  refused fault hfault := by cases hfault
  apart other hother userId hne := by
    cases hother
    have huser := h.ofUser_applyTo hs hd hne
    exact ⟨huser, userEntries_eq_of_ofUser huser, balance_eq_of_ofUser huser⟩

theorem accounts_refused (c : Command) (fault : LedgerError) (supply : Supply) :
    Accounts config s c (.error fault) { s with supply := supply } where
  created e he := by cases he
  reversed id reason receipt hc hreceipt := by cases hreceipt
  settled id hc userId currency := ⟨rfl, rfl⟩
  duplicate e he := by cases he
  refused fault hfault := rfl
  apart receipt hreceipt := by cases hreceipt

theorem Step.accounts {c : Command} {result : Except LedgerError Receipt}
    (h : Step config s c result t) (hs : Consistent config s) (hd : config.source.Distinct)
    (hp : Paired s.store.list) :
    Accounts config s c result t := by
  cases h with
  | refused fault supply more => exact accounts_refused c fault supply
  | answered h => exact h.accounts hs hd hp

theorem fst_mem_of_mem_answers {cs : List Command} {x : Exchange} (h : x ∈ answers config cs s) :
    x.1 ∈ cs := by
  induction cs generalizing s with
  | nil => cases h
  | cons c cs ih =>
      rcases List.mem_cons.1 h with rfl | h
      · exact List.mem_cons_self
      · exact List.mem_cons_of_mem _ (ih h)

theorem valid_of_request {c : Command} {request : RewardRequest} (h : c.request? = some request)
    (hvalid : ∀ other, c = .create other → other.Valid) : request.Valid := by
  cases c with
  | create other =>
      cases h
      exact hvalid _ rfl
  | createFromAction action => exact valid_of_actionRequest (request?_createFromAction_iff.1 h)
  | confirm id | pay id | reverse id reason => cases h

theorem owed_nonneg (hd : config.source.Distinct) (supply : Supply) {cs : List Command}
    (hvalid : ∀ request, Command.create request ∈ cs → request.Valid) (userId : String)
    (currency : Option String) : 0 ≤ owed (answers config cs (start supply)) userId currency := by
  refine List.sum_nonneg fun x hx => ?_
  obtain ⟨e, he, rfl⟩ := List.mem_map.1 hx
  obtain ⟨c, hc⟩ := exists_created_of_mem_outstanding he
  obtain ⟨request, hasks, hamount⟩ := asked_of_created hd supply cs c e hc
  have hrequest := valid_of_request hasks fun other hother =>
    hvalid other (hother ▸ fst_mem_of_mem_answers hc)
  rw [Entry.portion]
  split
  · exact Decimal.toRat_nonneg (hamount ▸ hrequest.isNegative_amount)
  · exact le_rfl

/-- After every run a user's exact balance is the sum of the rewards that were made and not taken
back since, so it is never below zero, and every further command changes balances as it should. -/
theorem balance_accounts (config : LedgerConfig) (hd : config.source.Distinct) (supply : Supply)
    (cs : List Command) :
    let s := after config cs (start supply)
    (∀ userId currency, exactBalance s.store userId currency =
      owed (answers config cs (start supply)) userId currency) ∧
    ((∀ request, Command.create request ∈ cs → request.Valid) →
      ∀ userId currency, 0 ≤ exactBalance s.store userId currency) ∧
    ∀ c, Accounts config s c (perform config c s).1 (perform config c s).2 := by
  intro s
  have hs : Consistent config s := consistent_after hd supply cs
  have hp : Paired s.store.list := paired_after hd supply cs
  have hexact : ∀ userId currency, exactBalance s.store userId currency =
      owed (answers config cs (start supply)) userId currency := by
    intro userId currency
    rw [exactBalance_of_paired hp, owed, standing_after hd]
  refine ⟨hexact, fun hvalid userId currency => ?_, fun c => ?_⟩
  · rw [hexact]
    exact owed_nonneg hd supply hvalid userId currency
  · exact (perform_step hs c).accounts hs hd hp

/-- Two rewards, the first of them taken back. -/
theorem balance_accounts_reversed :
    let cs := [.create (signup "ada"),
      .create ⟨"ada", ⟨false, 3, 0⟩, "invite", none, none, []⟩,
      .reverse "entry-00000000000000000000000000000001" none]
    counting.source.Distinct ∧ (∀ request, Command.create request ∈ cs → request.Valid) ∧
      owed (answers counting cs (start .fresh)) "ada" none = 3 ∧
      exactBalance (after counting cs (start .fresh)).store "ada" none = 3 ∧
      ∀ userId currency,
        0 ≤ exactBalance (after counting cs (start .fresh)).store userId currency := by
  intro cs
  have hvalid : ∀ request, Command.create request ∈ cs → request.Valid := by
    intro request h
    simp only [cs, List.mem_cons, Command.create.injEq, reduceCtorEq, List.not_mem_nil,
      or_false] at h
    rcases h with rfl | rfl
    · exact ⟨by decide, rfl, by decide⟩
    · exact ⟨by decide, rfl, by decide⟩
  have howed : owed (answers counting cs (start .fresh)) "ada" none = 3 := by decide +kernel
  obtain ⟨hexact, hnonneg, -⟩ := balance_accounts counting distinct_counting_source .fresh cs
  exact ⟨distinct_counting_source, hvalid, howed, (hexact "ada" none).trans howed, hnonneg hvalid⟩

end Referral.Ledger
