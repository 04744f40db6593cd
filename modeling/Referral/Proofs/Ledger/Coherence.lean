import Referral.Proofs.Ledger.Plan
import Referral.Proofs.Ledger.Request
import Referral.Proofs.Ledger.Reversal
import Referral.Proofs.Ledger.Transaction
import Referral.Proofs.Number.Rational

namespace Referral

/-- What every stored entry has. The amount is a decimal, so it is finite. -/
structure Entry.Filled (defaultCurrency : String) (e : Entry) : Prop where
  userId : e.userId ≠ ""
  reference : e.reference ≠ ""
  amount : 0 ≤ e.amount.toRat
  currency : defaultCurrency ≠ "" → e.currency ≠ ""

/-- Entries stand under their own identifiers, the index leads from the reference of each to it and
nowhere else, and both tables have their rows in the same order. -/
structure Store.Coherent (defaultCurrency : String) (s : Store) : Prop where
  keyed : ∀ id e, s.entries.get? id = some e → e.id = id ∧ id ≠ ""
  led : ∀ reference id, s.references.get? reference = some id ↔
    ∃ e, s.entries.get? id = some e ∧ e.reference = reference
  count : s.references.rows.length = s.entries.rows.length
  ordered : s.references.rows = s.entries.rows.map fun row => (row.2.reference, row.1)
  filled : ∀ id e, s.entries.get? id = some e → e.Filled defaultCurrency

namespace Ledger

variable {config : LedgerConfig} {s t : LedgerState} {α β : Type}

theorem filled_ne_empty {text : Option String} {default : String} (h : default ≠ "") :
    filled text default ≠ "" := by
  cases text with
  | none => exact h
  | some t =>
      rw [filled]
      split
      next => exact h
      next hne =>
        rintro rfl
        exact hne rfl

theorem filled_newEntry {request : RewardRequest} (h : request.Valid) (id : String)
    (now : Timestamp) : (newEntry config request id now).Filled config.defaultCurrency where
  userId := h.userId
  reference := h.reference
  amount := Decimal.toRat_nonneg h.isNegative_amount
  currency := filled_ne_empty

theorem filled_withStatus {e : Entry} (h : e.Filled config.defaultCurrency) (status : Status)
    (at_ : Timestamp) : (e.withStatus status at_).Filled config.defaultCurrency :=
  ⟨h.userId, h.reference, h.amount, h.currency⟩

theorem filled_reversal {e : Entry} (h : e.Filled config.defaultCurrency) (id : String)
    (reason : Value) (at_ : Timestamp) :
    (e.reversal id reason at_).Filled config.defaultCurrency where
  userId := h.userId
  reference := by simp [Entry.reversal, reversalReference, reversalMark]
  amount := h.amount
  currency := h.currency

/-- Both tables agree, each entry has an identifier that was given out, and each is filled in. -/
structure Intact (config : LedgerConfig) (s : LedgerState) : Prop where
  indexed : s.store.Indexed
  issued : ∀ e ∈ s.store.list, ∃ n ≤ s.supply.ids, e.id = config.source.id "entry" n
  filled : ∀ e ∈ s.store.list, e.Filled config.defaultCurrency

/-- The identifier was given out, and no entry has it. -/
structure Spare (config : LedgerConfig) (id : String) (s : LedgerState) : Prop where
  issued : ∃ n ≤ s.supply.ids, id = config.source.id "entry" n
  unused : ∀ e ∈ s.store.list, e.id ≠ id

theorem intact_start (config : LedgerConfig) (supply : Supply) : Intact config (start supply) :=
  ⟨Store.indexed_empty, fun _ he => absurd he List.not_mem_nil,
    fun _ he => absurd he List.not_mem_nil⟩

namespace Intact

theorem coherent (hs : Intact config s) : s.store.Coherent config.defaultCurrency where
  keyed id e hget := by
    obtain ⟨he, rfl⟩ := (hs.indexed.find?_eq_some_iff id e).1 hget
    obtain ⟨n, -, hid⟩ := hs.issued e he
    exact ⟨rfl, hid ▸ config.source.id_ne_empty "entry" n⟩
  led reference id := by
    rw [hs.indexed.holder_eq_some_iff]
    constructor
    · rintro ⟨e, he, hreference, hid⟩
      exact ⟨e, (hs.indexed.find?_eq_some_iff id e).2 ⟨he, hid⟩, hreference⟩
    · rintro ⟨e, hget, hreference⟩
      obtain ⟨he, hid⟩ := (hs.indexed.find?_eq_some_iff id e).1 hget
      exact ⟨e, he, hreference, hid⟩
  count := by rw [hs.indexed.entries, hs.indexed.references, List.length_map, List.length_map]
  ordered := by
    rw [hs.indexed.entries, hs.indexed.references, List.map_map]
    rfl
  filled id e hget := hs.filled e ((hs.indexed.find?_eq_some_iff id e).1 hget).1

theorem of_tables (hs : Intact config s) (htables : t.store.tables = s.store.tables)
    (hids : s.supply.ids ≤ t.supply.ids) : Intact config t := by
  have hentries : t.store.entries = s.store.entries := congrArg Tables.entries htables
  have hreferences : t.store.references = s.store.references := congrArg Tables.references htables
  have hlist : t.store.list = s.store.list := congrArg Table.values hentries
  refine ⟨⟨?_, ?_⟩, fun e he => ?_, fun e he => hs.filled e (hlist ▸ he)⟩
  · rw [hentries, hlist]
    exact hs.indexed.entries
  · rw [hreferences, hlist]
    exact hs.indexed.references
  · obtain ⟨n, hn, hid⟩ := hs.issued e (hlist ▸ he)
    exact ⟨n, hn.trans hids, hid⟩

theorem add (hs : Intact config s) {e : Entry} (hspare : Spare config e.id s)
    (hfilled : e.Filled config.defaultCurrency)
    (hfree : s.store.references.get? e.reference = none) :
    Intact config { s with store := s.store.add e } := by
  have hlist := hs.indexed.list_add hspare.unused
  have hreference := (hs.indexed.holder_eq_none_iff e.reference).1 hfree
  refine ⟨hs.indexed.add hspare.unused hreference, fun x hx => ?_, fun x hx => ?_⟩
  · rw [hlist, List.mem_append, List.mem_singleton] at hx
    rcases hx with hx | rfl
    · exact hs.issued x hx
    · exact hspare.issued
  · rw [hlist, List.mem_append, List.mem_singleton] at hx
    rcases hx with hx | rfl
    · exact hs.filled x hx
    · exact hfilled

theorem moved (hs : Intact config s) {e : Entry} (he : e ∈ s.store.list) (status : Status)
    (at_ : Timestamp) :
    Intact config { s with store := s.store.writeEntry e.id (e.withStatus status at_) } := by
  have hlist := list_moved hs.indexed he status at_
  refine ⟨indexed_moved hs.indexed he status at_, fun x hx => ?_, fun x hx => ?_⟩
  · rw [hlist, mem_moved he] at hx
    rcases hx with rfl | ⟨hx, -⟩
    · exact hs.issued e he
    · exact hs.issued x hx
  · rw [hlist, mem_moved he] at hx
    rcases hx with rfl | ⟨hx, -⟩
    · exact filled_withStatus (hs.filled e he) status at_
    · exact hs.filled x hx

end Intact

theorem Spare.moved {id : String} (h : Spare config id s) (hs : Intact config s) {e : Entry}
    (he : e ∈ s.store.list) (status : Status) (at_ : Timestamp) :
    Spare config id { s with store := s.store.writeEntry e.id (e.withStatus status at_) } := by
  refine ⟨h.issued, ?_⟩
  rw [list_moved hs.indexed he]
  exact ne_of_map_eq (·.id) (ids_moved hs.indexed he status at_) h.unused

/-- From an intact state with `before` the call leads to an intact state, and where it comes to a
value to one with `value`. -/
def Call.Leads (config : LedgerConfig) (before : LedgerState → Prop) (c : Call α)
    (value : α → LedgerState → Prop) : Prop :=
  ∀ ⦃s⦄, Intact config s → before s → Intact config (c.run config s).2 ∧
    ∀ a, (c.run config s).1 = .ok a → value a (c.run config s).2

namespace Call

theorem leads_readClock :
    Call.readClock.Leads config (fun _ => True) fun _ _ => True :=
  fun _ hs _ => ⟨hs.of_tables rfl (Nat.le_refl _), fun _ _ => trivial⟩

theorem leads_takeId (hd : config.source.Distinct) :
    Call.takeId.Leads config (fun _ => True) fun id => Spare config id := by
  intro s hs _
  refine ⟨hs.of_tables rfl (Nat.le_succ _), fun id hid => ?_⟩
  cases hid
  refine ⟨⟨s.supply.ids + 1, Nat.le_refl _, rfl⟩, fun e he => ?_⟩
  obtain ⟨n, hn, hid⟩ := hs.issued e he
  rw [hid]
  exact Source.id_ne_of_lt hd "entry" (Nat.lt_succ_of_le hn)

theorem leads_findReference (reference : String) :
    (findReference reference).Leads config (fun _ => True) fun _ _ => True := by
  intro s hs _
  refine ⟨?_, fun _ _ => trivial⟩
  rw [run, Ledger.findReference]
  split
  next => exact hs
  next => exact hs.of_tables rfl (Nat.le_refl _)

theorem leads_find (id : String) :
    (find id).Leads config (fun _ => True) fun e _ => e.Filled config.defaultCurrency := by
  intro s hs _
  cases hfind : s.store.find? id with
  | none =>
      rw [run, find_absent hfind]
      refine ⟨hs, fun a ha => ?_⟩
      cases ha
  | some e =>
      rw [run, find_present hfind]
      refine ⟨hs, fun a ha => ?_⟩
      cases ha
      exact hs.filled e ((hs.indexed.find?_eq_some_iff id e).1 hfind).1

theorem leads_update (id : String) (status : Status) (at_ : Timestamp)
    {before : LedgerState → Prop}
    (hbefore : ∀ s, Intact config s → ∀ e ∈ s.store.list, before s →
      before { s with store := s.store.writeEntry e.id (e.withStatus status at_) }) :
    (update id status at_).Leads config before fun _ => before := by
  intro s hs hb
  cases hfind : s.store.find? id with
  | none =>
      have hrefused : (update id status at_).run config s = (.error (.entryNotFound id), s) := by
        simp [run, Ledger.update, Store.update, hfind, throw, throwThe, MonadExceptOf.throw]
      rw [hrefused]
      refine ⟨hs, fun a ha => ?_⟩
      cases ha
  | some e =>
      obtain ⟨he, rfl⟩ := (hs.indexed.find?_eq_some_iff id e).1 hfind
      rw [run, update_present hfind]
      exact ⟨hs.moved he status at_, fun _ _ => hbefore s hs e he hb⟩

theorem leads_insert {e : Entry} (hfilled : e.Filled config.defaultCurrency) :
    (insert e).Leads config (Spare config e.id) fun _ _ => True := by
  intro s hs hspare
  refine ⟨?_, fun _ _ => trivial⟩
  cases hholder : s.store.references.get? e.reference with
  | some holder =>
      rw [run, insert_taken hholder]
      exact hs
  | none =>
      rw [run, insert_free hholder]
      exact hs.add hspare hfilled hholder

end Call

namespace Plan

/-- All stores that the plan passes through are coherent, and it ends in an intact state. The end
is asked for apart, as what follows the plan needs to know what was given out. -/
structure SafeAt (config : LedgerConfig) (p : Plan α) (s : LedgerState) : Prop where
  passed : ∀ store ∈ p.stores config s, store.Coherent config.defaultCurrency
  ends : Intact config (p.run config s).2

def SafeFrom (config : LedgerConfig) (before : LedgerState → Prop) (p : Plan α) : Prop :=
  ∀ ⦃s⦄, Intact config s → before s → p.SafeAt config s

abbrev Safe (config : LedgerConfig) (p : Plan α) : Prop := p.SafeFrom config fun _ => True

theorem safeFrom_pure (before : LedgerState → Prop) (a : α) :
    (pure a : Plan α).SafeFrom config before :=
  fun _ hs _ => ⟨nofun, hs⟩

theorem safeFrom_refuse (before : LedgerState → Prop) (fault : LedgerError) :
    (refuse fault : Plan α).SafeFrom config before :=
  fun _ hs _ => ⟨nofun, hs⟩

theorem SafeFrom.of_fact {fact : Prop} {p : Plan α} (h : fact → p.Safe config) :
    p.SafeFrom config fun _ => fact :=
  fun _ hs hfact => h hfact hs trivial

theorem safe_after {step : LedgerM β} {next : β → Plan α} (hstep : Intact config (step s).2)
    (hnext : ∀ a, (step s).1 = .ok a → (next a).SafeAt config (step s).2) :
    (∀ store ∈ storesAfter step (fun a => (next a).stores config) s,
      store.Coherent config.defaultCurrency) ∧
    Intact config ((step >>= fun a => (next a).run config) s).2 := by
  rcases h : step s with ⟨fault | a, t⟩
  · rw [h] at hstep
    rw [bind_error h, storesAfter, h]
    exact ⟨List.forall_mem_singleton.2 hstep.coherent, hstep⟩
  · rw [h] at hstep hnext
    obtain ⟨hpassed, hends⟩ := hnext a rfl
    rw [bind_ok h, storesAfter, h]
    exact ⟨List.forall_mem_cons.2 ⟨hstep.coherent, hpassed⟩, hends⟩

theorem SafeFrom.call {before : LedgerState → Prop} {value : β → LedgerState → Prop} {c : Call β}
    {next : β → Plan α} (hc : c.Leads config before value)
    (hnext : ∀ a, (next a).SafeFrom config (value a)) :
    (call c next).SafeFrom config before := by
  intro s hs hb
  obtain ⟨ht, hvalue⟩ := hc hs hb
  obtain ⟨hpassed, hends⟩ := safe_after ht fun a ha => hnext a ht (hvalue a ha)
  exact ⟨hpassed, hends⟩

theorem SafeFrom.ofExcept {before : LedgerState → Prop} {x : Except LedgerError β}
    {next : β → Plan α} (h : ∀ a, x = .ok a → (next a).SafeFrom config before) :
    (ofExcept x >>= next).SafeFrom config before := by
  cases x with
  | error fault => exact safeFrom_refuse before fault
  | ok a => exact h a rfl

theorem intact_transaction {body : Plan α} (hs : Intact config s)
    (hbody : Intact config (body.run config s.entered).2) :
    Intact config (Ledger.transaction (body.run config) s).2 := by
  have hlater : s.entered.Later (body.run config s.entered).2 := body.later_run s.entered
  rcases h : body.run config s.entered with ⟨fault | a, t⟩
  · rw [h] at hlater
    rw [transaction_undone h hlater.store]
    exact hs.of_tables rfl hlater.ids
  · rw [h] at hbody
    rw [transaction_kept h]
    have htables := Transaction.Program.tables_closeScope_kept s.store t.store
    exact hbody.of_tables htables (Nat.le_refl _)

theorem Safe.scope {body : Plan β} {next : β → Plan α} (hbody : body.Safe config)
    (hnext : ∀ a, (next a).Safe config) : (scope body next).Safe config := by
  intro s hs _
  have hentered : Intact config s.entered := hs.of_tables rfl (Nat.le_refl _)
  obtain ⟨hinside, hend⟩ := hbody hentered trivial
  have hclosed := intact_transaction hs hend
  obtain ⟨hpassed, hends⟩ := safe_after hclosed fun a _ => hnext a hclosed trivial
  refine ⟨fun store hstore => ?_, hends⟩
  rcases List.mem_append.1 hstore with hstore | hstore
  · exact (List.forall_mem_cons.2 ⟨hentered.coherent, hinside⟩) store hstore
  · exact hpassed store hstore

theorem safe_create (hd : config.source.Distinct) {request : RewardRequest} (h : request.Valid) :
    (create config request).Safe config := by
  refine Safe.scope (.call (Call.leads_findReference _) fun found => ?_) (safeFrom_pure _)
  cases found with
  | some e => exact safeFrom_pure _ _
  | none =>
      refine .call Call.leads_readClock fun now => .call (Call.leads_takeId hd) fun id => ?_
      refine .call (Call.leads_insert (filled_newEntry h id now)) fun refused => ?_
      cases refused with
      | none => exact safeFrom_pure _ _
      | some fault =>
          refine .call (Call.leads_findReference _) fun winner => ?_
          cases winner with
          | some e => exact safeFrom_pure _ _
          | none => exact safeFrom_refuse _ fault

theorem safe_moveTo (id : String) (target : Status) {next : Entry → Plan α}
    (hnext : ∀ e, (next e).Safe config) : (moveTo id target >>= next).Safe config := by
  refine Safe.scope (.call (Call.leads_find id) fun e => .ofExcept fun _ _ => ?_) hnext
  -- What was found does not matter any more: the update looks the entry up again.
  refine .of_fact fun _ => .call Call.leads_readClock fun now => ?_
  exact .call (Call.leads_update id target now fun _ _ _ _ _ => trivial) fun e => safeFrom_pure _ e

theorem safe_reverse (hd : config.source.Distinct) (id : String) (reason : Option String) :
    (reverse id reason).Safe config := by
  refine Safe.scope (.call (Call.leads_find id) fun e => .of_fact fun hfilled => ?_)
    (safeFrom_pure _)
  refine .ofExcept fun _ _ => .call Call.leads_readClock fun now => ?_
  refine .call (Call.leads_takeId hd) fun new => ?_
  -- The update keeps all identifiers, so the new one is still unused when the row is added.
  refine .call (Call.leads_update id .reversed now fun s hs e he h => h.moved hs he _ _)
    fun updated => ?_
  refine .call (Call.leads_insert (filled_reversal hfilled new _ now)) fun refused => ?_
  cases refused with
  | none => exact safeFrom_pure _ _
  | some fault => exact safeFrom_refuse _ fault

end Plan

/-- A request that a caller hands over was read from a document. -/
def Command.Accepted (c : Command) : Prop :=
  ∀ request, c = .create request → ∃ v, RewardRequest.ofValue v = .ok request

theorem Plan.safe_ofCommand (hd : config.source.Distinct) {c : Command} (hc : c.Accepted) :
    (ofCommand config c).Safe config := by
  cases c with
  | create request =>
      obtain ⟨v, hv⟩ := hc request rfl
      exact safe_create hd (RewardRequest.valid_of_ofValue hv)
  | createFromAction action =>
      exact .ofExcept fun request h => safe_create hd (valid_of_actionRequest h)
  | confirm id => exact safe_moveTo id .confirmed fun e => safeFrom_pure _ _
  | pay id => exact safe_moveTo id .paid fun e => safeFrom_pure _ _
  | reverse id reason => exact safe_reverse hd id reason

theorem intact_after (hd : config.source.Distinct) (hs : Intact config s) {cs : List Command}
    (hcs : ∀ c ∈ cs, c.Accepted) : Intact config (after config cs s) := by
  induction cs generalizing s with
  | nil => exact hs
  | cons c cs ih =>
      obtain ⟨hc, hrest⟩ := List.forall_mem_cons.1 hcs
      have hsafe := Plan.safe_ofCommand hd hc hs trivial
      have hends := hsafe.ends
      rw [Plan.run_ofCommand] at hends
      exact ih hends hrest

/-- After every run the store is coherent, and so it is at every point of a further command: after
each call, where the transaction has begun and where it has ended, whether the command succeeds or
fails. -/
theorem stores_coherent (config : LedgerConfig) (hd : config.source.Distinct) (supply : Supply)
    (cs : List Command) (hcs : ∀ c ∈ cs, c.Accepted) :
    let s := after config cs (start supply)
    s.store.Coherent config.defaultCurrency ∧
    ∀ c : Command, (Plan.ofCommand config c).run config = perform config c ∧
      (c.Accepted → ∀ store ∈ (Plan.ofCommand config c).stores config s,
        store.Coherent config.defaultCurrency) := by
  intro s
  have hs : Intact config s := intact_after hd (intact_start config supply) hcs
  refine ⟨hs.coherent, fun c => ⟨Plan.run_ofCommand c, fun hc => ?_⟩⟩
  exact (Plan.safe_ofCommand hd hc hs trivial).passed

/-- A reversal that is refused by its last call. Between the calls the entry is reversed already, at
the end it is pending again. -/
theorem stores_coherent_clashing :
    let cs := clashing.take 2
    let c := Command.reverse "entry-00000000000000000000000000000001" none
    let passed := (Plan.ofCommand counting c).stores counting (after counting cs (start .fresh))
    counting.source.Distinct ∧ (∀ c ∈ cs, c.Accepted) ∧ c.Accepted ∧
      passed.map (fun store => store.list.map (·.status)) =
        [[.pending, .pending], [.pending, .pending], [.pending, .pending], [.pending, .pending],
          [.reversed, .pending], [.reversed, .pending], [.pending, .pending]] ∧
      ∀ store ∈ passed, store.Coherent "USD" := by
  intro cs c passed
  have hcs : ∀ c ∈ cs, c.Accepted := by
    intro c hc request hrequest
    rcases List.mem_pair.1 hc with rfl | rfl
    · cases hrequest
      exact ⟨.map [("userId", .text "ada"), ("amount", .text "5.00"),
        ("referenceId", .text "signup")], rfl⟩
    · cases hrequest
      exact ⟨.map [("userId", .text "bob"), ("amount", .int 1),
        ("referenceId", .text "reversal-entry-00000000000000000000000000000001")], rfl⟩
  have hc : c.Accepted := by
    intro request h
    change Command.reverse _ none = .create request at h
    cases h
  obtain ⟨-, hcommands⟩ := stores_coherent counting distinct_counting_source .fresh cs hcs
  exact ⟨distinct_counting_source, hcs, hc, by decide +kernel, (hcommands c).2 hc⟩

end Ledger

end Referral
