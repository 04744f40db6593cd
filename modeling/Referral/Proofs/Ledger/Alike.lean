import Referral.Proofs.Ledger.Run

namespace Referral

/-- The source without what it gave out between two counts. -/
def Source.without (source : Source) (first later : Supply) : Source where
  token n := source.token (if n ≤ first.ids then n else n + (later.ids - first.ids))
  reading n :=
    source.reading (if n ≤ first.readings then n else n + (later.readings - first.readings))

def LedgerConfig.without (config : LedgerConfig) (first later : Supply) : LedgerConfig :=
  { config with source := config.source.without first later }

structure LedgerState.Alike (source source' : Source) (s t : LedgerState) : Prop where
  store : s.store = t.store
  staleReads : s.staleReads = t.staleReads
  tokens : ∀ k, source.token (s.supply.ids + k + 1) = source'.token (t.supply.ids + k + 1)
  readings : ∀ k,
    source.reading (s.supply.readings + k + 1) = source'.reading (t.supply.readings + k + 1)

namespace Ledger

open LedgerState (Alike)

variable {source source' : Source} {α β : Type}

/-- Two steps that come to the same in states that are alike. -/
def Agree (source source' : Source) (x y : LedgerM α) : Prop :=
  ∀ ⦃s t⦄, Alike source source' s t → (x s).1 = (y t).1 ∧ Alike source source' (x s).2 (y t).2

theorem agree_pure (a : α) : Agree source source' (pure a) (pure a) :=
  fun _ _ h => ⟨rfl, h⟩

theorem agree_throw (fault : LedgerError) :
    Agree source source' (throw fault : LedgerM α) (throw fault) :=
  fun _ _ h => ⟨rfl, h⟩

theorem agree_liftM (x : Except LedgerError RewardRequest) :
    Agree source source' (liftM x : LedgerM RewardRequest) (liftM x) := by
  intro s t h
  rw [liftM_apply, liftM_apply]
  exact ⟨rfl, h⟩

theorem Agree.bind {x y : LedgerM α} {f g : α → LedgerM β} (h : Agree source source' x y)
    (hnext : ∀ a, Agree source source' (f a) (g a)) :
    Agree source source' (x >>= f) (y >>= g) := by
  intro s t hst
  obtain ⟨hresult, hstates⟩ := h hst
  rcases hx : x s with ⟨fault | a, s'⟩
  · rcases hy : y t with ⟨fault' | a', t'⟩
    · rw [hx, hy] at hresult hstates
      cases hresult
      rw [bind_error hx, bind_error hy]
      exact ⟨rfl, hstates⟩
    · rw [hx, hy] at hresult
      cases hresult
  · rcases hy : y t with ⟨fault' | a', t'⟩
    · rw [hx, hy] at hresult
      cases hresult
    · rw [hx, hy] at hresult hstates
      cases hresult
      rw [bind_ok hx, bind_ok hy]
      exact hnext a hstates

theorem agree_takeId {config config' : LedgerConfig} :
    Agree config.source config'.source (takeId config) (takeId config') := by
  intro s t h
  have hid : config.source.id "entry" (s.supply.ids + 1) =
      config'.source.id "entry" (t.supply.ids + 1) := congrArg ("entry-" ++ ·) (h.tokens 0)
  refine ⟨congrArg Except.ok hid, h.store, h.staleReads, fun k => ?_, h.readings⟩
  change config.source.token (s.supply.ids + 1 + k + 1) =
    config'.source.token (t.supply.ids + 1 + k + 1)
  rw [Nat.add_right_comm _ 1 k, Nat.add_right_comm _ 1 k]
  exact h.tokens (k + 1)

theorem agree_readClock {config config' : LedgerConfig} :
    Agree config.source config'.source (readClock config) (readClock config') := by
  intro s t h
  refine ⟨congrArg Except.ok (h.readings 0), h.store, h.staleReads, h.tokens, fun k => ?_⟩
  change config.source.reading (s.supply.readings + 1 + k + 1) =
    config'.source.reading (t.supply.readings + 1 + k + 1)
  rw [Nat.add_right_comm _ 1 k, Nat.add_right_comm _ 1 k]
  exact h.readings (k + 1)

theorem agree_findReference (reference : String) :
    Agree source source' (findReference reference) (findReference reference) := by
  rintro ⟨store, supply, stale⟩ ⟨store', supply', stale'⟩ h
  obtain ⟨rfl : store = store', rfl : stale = stale', htokens, hreadings⟩ := h
  cases stale with
  | zero => exact ⟨rfl, rfl, rfl, htokens, hreadings⟩
  | succ n => exact ⟨rfl, rfl, rfl, htokens, hreadings⟩

theorem agree_insert (e : Entry) : Agree source source' (insert e) (insert e) := by
  rintro ⟨store, supply, stale⟩ ⟨store', supply', stale'⟩ h
  obtain ⟨rfl : store = store', rfl : stale = stale', htokens, hreadings⟩ := h
  cases hinsert : store.insert e with
  | error fault => simpa [insert, hinsert] using ⟨rfl, rfl, htokens, hreadings⟩
  | ok store' => simpa [insert, hinsert] using ⟨rfl, rfl, htokens, hreadings⟩

theorem agree_find (id : String) : Agree source source' (find id) (find id) := by
  rintro ⟨store, supply, stale⟩ ⟨store', supply', stale'⟩ h
  obtain ⟨rfl : store = store', rfl : stale = stale', htokens, hreadings⟩ := h
  cases hfind : store.find? id with
  | none => simpa [find, hfind] using ⟨rfl, rfl, htokens, hreadings⟩
  | some e => simpa [find, hfind] using ⟨rfl, rfl, htokens, hreadings⟩

theorem agree_update (id : String) (status : Status) (at_ : Timestamp) :
    Agree source source' (update id status at_) (update id status at_) := by
  rintro ⟨store, supply, stale⟩ ⟨store', supply', stale'⟩ h
  obtain ⟨rfl : store = store', rfl : stale = stale', htokens, hreadings⟩ := h
  cases hupdate : store.update id status at_ with
  | error fault => simpa [update, hupdate] using ⟨rfl, rfl, htokens, hreadings⟩
  | ok row => simpa [update, hupdate] using ⟨rfl, rfl, htokens, hreadings⟩

theorem agree_checkMove (e : Entry) (target : Status) :
    Agree source source' (checkMove e target) (checkMove e target) :=
  fun _ _ h => ⟨rfl, h⟩

theorem Agree.transaction {x y : LedgerM α} (h : Agree source source' x y) :
    Agree source source' (Ledger.transaction x) (Ledger.transaction y) := by
  rintro ⟨store, supply, stale⟩ ⟨store', supply', stale'⟩ hst
  obtain ⟨rfl : store = store', rfl : stale = stale', htokens, hreadings⟩ := hst
  have hopened : Alike source source' ⟨store.openScope.2, supply, stale⟩
      ⟨store.openScope.2, supply', stale⟩ := ⟨rfl, rfl, htokens, hreadings⟩
  obtain ⟨hresult, hstates⟩ := h hopened
  rcases hx : x ⟨store.openScope.2, supply, stale⟩ with ⟨result, s'⟩
  rcases hy : y ⟨store.openScope.2, supply', stale⟩ with ⟨result', t'⟩
  rw [hx, hy] at hresult hstates
  obtain rfl : result = result' := hresult
  obtain ⟨hstore, hstale, htokens', hreadings'⟩ := hstates
  cases result with
  | error fault =>
      simp only [Ledger.transaction, hx, hy, true_and]
      exact ⟨congrArg (Store.closeScope _ _) hstore, hstale, htokens', hreadings'⟩
  | ok a =>
      simp only [Ledger.transaction, hx, hy, true_and]
      exact ⟨congrArg (Store.closeScope _ _) hstore, hstale, htokens', hreadings'⟩

variable {config config' : LedgerConfig}

theorem agree_create (hcurrency : config.defaultCurrency = config'.defaultCurrency)
    (request : RewardRequest) :
    Agree config.source config'.source (create config request) (create config' request) := by
  have hentry (id : String) (now : Timestamp) :
      newEntry config request id now = newEntry config' request id now := by
    rw [newEntry, newEntry, hcurrency]
  refine Agree.transaction ((agree_findReference _).bind fun found => ?_)
  cases found with
  | some e => exact agree_pure _
  | none =>
      refine agree_readClock.bind fun now => agree_takeId.bind fun id => ?_
      rw [hentry]
      refine (agree_insert _).bind fun refused => ?_
      cases refused with
      | none => exact agree_pure _
      | some fault =>
          refine (agree_findReference _).bind fun winner => ?_
          cases winner with
          | some e => exact agree_pure _
          | none => exact agree_throw fault

theorem agree_moveTo (id : String) (target : Status) :
    Agree config.source config'.source (moveTo config id target) (moveTo config' id target) :=
  ((agree_find id).bind fun e => (agree_checkMove e target).bind fun _ =>
    agree_readClock.bind fun now => agree_update id target now).transaction

theorem agree_reverse (id : String) (reason : Option String) :
    Agree config.source config'.source (reverse config id reason) (reverse config' id reason) := by
  refine Agree.transaction ((agree_find id).bind fun e => (agree_checkMove e _).bind fun _ =>
    agree_readClock.bind fun now => agree_takeId.bind fun new => (agree_update id _ now).bind
      fun updated => (agree_insert _).bind fun refused => ?_)
  cases refused with
  | none => exact agree_pure _
  | some fault => exact agree_throw fault

theorem agree_perform (hcurrency : config.defaultCurrency = config'.defaultCurrency)
    (c : Command) : Agree config.source config'.source (perform config c) (perform config' c) := by
  cases c with
  | create request => exact agree_create hcurrency request
  | createFromAction action => exact (agree_liftM _).bind fun r => agree_create hcurrency r
  | confirm id => exact (agree_moveTo id .confirmed).bind fun e => agree_pure _
  | pay id => exact (agree_moveTo id .paid).bind fun e => agree_pure _
  | reverse id reason => exact agree_reverse id reason

theorem answers_of_alike (hcurrency : config.defaultCurrency = config'.defaultCurrency)
    (cs : List Command) {s t : LedgerState} (h : Alike config.source config'.source s t) :
    answers config cs s = answers config' cs t ∧
      Alike config.source config'.source (after config cs s) (after config' cs t) := by
  induction cs generalizing s t with
  | nil => exact ⟨rfl, h⟩
  | cons c cs ih =>
      obtain ⟨hresult, hstates⟩ := agree_perform hcurrency c h
      obtain ⟨hanswers, hafter⟩ := ih hstates
      refine ⟨?_, hafter⟩
      rw [answers, answers, hresult, hanswers]

/-- A state whose supply has moved on is like the one before it, once the source has lost what was
taken in between. -/
theorem alike_without (source : Source) {s t : LedgerState} (hstore : t.store = s.store)
    (hstale : t.staleReads = s.staleReads) (hids : s.supply.ids ≤ t.supply.ids)
    (hreadings : s.supply.readings ≤ t.supply.readings) :
    Alike source (source.without s.supply t.supply) t s := by
  refine ⟨hstore, hstale, fun k => ?_, fun k => ?_⟩
  · have hlater : ¬ s.supply.ids + k + 1 ≤ s.supply.ids := by omega
    simp only [Source.without, if_neg hlater]
    congr 1
    omega
  · have hlater : ¬ s.supply.readings + k + 1 ≤ s.supply.readings := by omega
    simp only [Source.without, if_neg hlater]
    congr 1
    omega

end Ledger

end Referral
