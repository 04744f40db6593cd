import Referral.Proofs.Ledger.Operation

namespace Referral

namespace LedgerState

/-- A state that calls may lead to: by writes that can be taken back, and by taking more from the
source. -/
structure Later (s t : LedgerState) : Prop where
  store : s.store.Follows t.store
  ids : s.supply.ids ≤ t.supply.ids

theorem later_refl (s : LedgerState) : s.Later s := ⟨.refl _, Nat.le_refl _⟩

theorem Later.trans {s t u : LedgerState} (h : s.Later t) (h' : t.Later u) : s.Later u :=
  ⟨h.store.trans h'.store, Nat.le_trans h.ids h'.ids⟩

end LedgerState

namespace Ledger

inductive Call : Type → Type
  | readClock : Call Timestamp
  | takeId : Call String
  | findReference (reference : String) : Call (Option Entry)
  | insert (e : Entry) : Call (Option LedgerError)
  | find (id : String) : Call Entry
  | update (id : String) (status : Status) (at_ : Timestamp) : Call Entry

def Call.run (config : LedgerConfig) {α : Type} : Call α → LedgerM α
  | readClock => Ledger.readClock config
  | takeId => Ledger.takeId config
  | findReference reference => Ledger.findReference reference
  | insert e => Ledger.insert e
  | find id => Ledger.find id
  | update id status at_ => Ledger.update id status at_

/-- Calls in turn, each in view of what the earlier ones came to. -/
inductive Plan : Type → Type 1
  | answer {α : Type} (a : α) : Plan α
  | refuse {α : Type} (fault : LedgerError) : Plan α
  | call {α β : Type} (c : Call β) (next : β → Plan α) : Plan α
  | scope {α β : Type} (body : Plan β) (next : β → Plan α) : Plan α

namespace Plan

variable {α β : Type}

def bind : Plan α → (α → Plan β) → Plan β
  | answer a, f => f a
  | refuse fault, _ => refuse fault
  | call c next, f => call c fun a => (next a).bind f
  | scope body next, f => scope body fun a => (next a).bind f

instance : Monad Plan where
  pure := answer
  bind := bind

def make (c : Call α) : Plan α := call c answer

def transaction (body : Plan α) : Plan α := scope body answer

def ofExcept : Except LedgerError α → Plan α
  | .ok a => answer a
  | .error fault => refuse fault

def run (config : LedgerConfig) : {α : Type} → Plan α → LedgerM α
  | _, answer a => pure a
  | _, refuse fault => throw fault
  | _, call c next => c.run config >>= fun a => (next a).run config
  | _, scope body next => Ledger.transaction (body.run config) >>= fun a => (next a).run config

def storesAfter (step : LedgerM α) (next : α → LedgerState → List Store) (s : LedgerState) :
    List Store :=
  match step s with
  | (.ok a, t) => t.store :: next a t
  | (.error _, t) => [t.store]

/-- The stores that a plan passes through: after each call, and where a transaction has begun or
ended. -/
def stores (config : LedgerConfig) : {α : Type} → Plan α → LedgerState → List Store
  | _, answer _, _ => []
  | _, refuse _, _ => []
  | _, call c next, s => storesAfter (c.run config) (fun a => (next a).stores config) s
  | _, scope body next, s =>
    s.entered.store :: body.stores config s.entered ++
      storesAfter (Ledger.transaction (body.run config)) (fun a => (next a).stores config) s

def create (config : LedgerConfig) (request : RewardRequest) : Plan Receipt :=
  transaction do
    match ← make (.findReference request.reference) with
    | some e => return .duplicate e
    | none =>
      let now ← make .readClock
      let id ← make .takeId
      let e := newEntry config request id now
      match ← make (.insert e) with
      | none => return .created e
      | some fault =>
        match ← make (.findReference request.reference) with
        | some winner => return .duplicate winner
        | none => refuse fault

def createFromAction (config : LedgerConfig) (a : ActionReward) : Plan Receipt := do
  let request ← ofExcept (actionRequest a)
  create config request

def moveTo (id : String) (target : Status) : Plan Entry :=
  transaction do
    let e ← make (.find id)
    ofExcept (e.checkMove target)
    let now ← make .readClock
    make (.update id target now)

def confirm (id : String) : Plan Receipt := return .confirmed (← moveTo id .confirmed)

def pay (id : String) : Plan Receipt := return .paid (← moveTo id .paid)

def reverse (id : String) (reason : Option String) : Plan Receipt :=
  transaction do
    let e ← make (.find id)
    ofExcept (e.checkMove .reversed)
    let now ← make .readClock
    let new ← make .takeId
    let against := e.reversal new (.ofOption reason) now
    let updated ← make (.update id .reversed now)
    match ← make (.insert against) with
    | none => return .reversed updated against
    | some fault => refuse fault

def ofCommand (config : LedgerConfig) : Command → Plan Receipt
  | .create request => create config request
  | .createFromAction action => createFromAction config action
  | .confirm id => confirm id
  | .pay id => pay id
  | .reverse id reason => reverse id reason

variable {config : LedgerConfig}

@[simp] theorem run_pure (a : α) : (pure a : Plan α).run config = pure a := rfl

@[simp] theorem run_refuse (fault : LedgerError) :
    (refuse fault : Plan α).run config = throw fault := rfl

@[simp] theorem run_bind (p : Plan α) (f : α → Plan β) :
    (p >>= f).run config = p.run config >>= fun a => (f a).run config := by
  -- Both sides make the first call, or the first transaction, and go on from its value.
  induction p with
  | answer a => rfl
  | refuse fault => rfl
  | call c next ih =>
      change (c.run config >>= fun a => (next a >>= f).run config) = _
      simp only [ih, run, bind_assoc]
  | scope body next _ ih =>
      change (Ledger.transaction (body.run config) >>= fun a => (next a >>= f).run config) = _
      simp only [ih, run, bind_assoc]

@[simp] theorem run_make (c : Call α) : (make c).run config = c.run config := bind_pure _

@[simp] theorem run_transaction (body : Plan α) :
    (transaction body).run config = Ledger.transaction (body.run config) := bind_pure _

@[simp] theorem run_ofExcept (x : Except LedgerError α) :
    (ofExcept x).run config = (liftM x : LedgerM α) := by
  cases x <;> rfl

theorem checkMove_eq (e : Entry) (target : Status) :
    checkMove e target = liftM (e.checkMove target) := by
  funext s
  rw [checkMove]
  cases e.checkMove target <;> rfl

theorem run_create (request : RewardRequest) :
    (create config request).run config = Ledger.create config request := by
  rw [create, Ledger.create, run_transaction, run_bind, run_make]
  congr 1
  refine bind_congr fun found => ?_
  cases found with
  | some e => simp
  | none =>
      simp only [run_bind, run_make]
      refine bind_congr fun now => bind_congr fun id => bind_congr fun refused => ?_
      cases refused with
      | none => simp
      | some fault =>
          rw [run_bind, run_make]
          refine bind_congr fun winner => ?_
          cases winner with
          | some e => simp
          | none => simp

theorem run_moveTo (id : String) (target : Status) :
    (moveTo id target).run config = Ledger.moveTo config id target := by
  simp [moveTo, Ledger.moveTo, checkMove_eq, Call.run]

theorem run_reverse (id : String) (reason : Option String) :
    (reverse id reason).run config = Ledger.reverse config id reason := by
  rw [reverse, Ledger.reverse, run_transaction]
  congr 1
  simp only [run_bind, run_make, run_ofExcept, checkMove_eq]
  refine bind_congr fun e => bind_congr fun _ => bind_congr fun now => bind_congr fun new =>
    bind_congr fun updated => bind_congr fun refused => ?_
  cases refused with
  | none => simp
  | some fault => simp

theorem run_ofCommand (c : Command) : (ofCommand config c).run config = perform config c := by
  cases c with
  | create request => exact run_create request
  | createFromAction action =>
      simp [ofCommand, createFromAction, perform, Ledger.createFromAction, run_create]
  | confirm id => simp [ofCommand, confirm, perform, Ledger.confirm, run_moveTo]
  | pay id => simp [ofCommand, pay, perform, Ledger.pay, run_moveTo]
  | reverse id reason => exact run_reverse id reason

end Plan

variable {α β : Type} {config : LedgerConfig}

theorem Call.later_run (c : Call α) (s : LedgerState) : s.Later (c.run config s).2 := by
  cases c with
  | readClock => exact ⟨.refl _, Nat.le_refl _⟩
  | takeId => exact ⟨.refl _, Nat.le_succ _⟩
  | findReference reference =>
      rw [run, Ledger.findReference]
      split
      next => exact s.later_refl
      next => exact ⟨.refl _, Nat.le_refl _⟩
  | insert e =>
      rw [run, Ledger.insert]
      split
      next store hinsert => exact ⟨Store.follows_of_insert hinsert, Nat.le_refl _⟩
      next => exact s.later_refl
  | find id =>
      rw [run, Ledger.find]
      split
      next => exact s.later_refl
      next => exact s.later_refl
  | update id status at_ =>
      rw [run, Ledger.update]
      split
      next e store hupdate => exact ⟨Store.follows_of_update hupdate, Nat.le_refl _⟩
      next => exact s.later_refl

theorem later_transaction {body : LedgerM α} (h : ∀ s, LedgerState.Later s (body s).2)
    (s : LedgerState) : s.Later (transaction body s).2 := by
  have hlater := h s.entered
  rcases hbody : body s.entered with ⟨fault | a, t⟩
  · rw [hbody] at hlater
    rw [transaction_undone hbody hlater.store]
    exact ⟨.refl _, hlater.ids⟩
  · rw [hbody] at hlater
    rw [transaction_kept hbody]
    exact ⟨Store.follows_closeScope false hlater.store, hlater.ids⟩

theorem later_bind {step : LedgerM α} {next : α → LedgerM β} {s : LedgerState}
    (hstep : s.Later (step s).2) (hnext : ∀ a t, LedgerState.Later t (next a t).2) :
    s.Later ((step >>= next) s).2 := by
  rcases h : step s with ⟨fault | a, t⟩
  · rw [h] at hstep
    rw [bind_error h]
    exact hstep
  · rw [h] at hstep
    rw [bind_ok h]
    exact hstep.trans (hnext a t)

theorem Plan.later_run (p : Plan α) (s : LedgerState) : s.Later (p.run config s).2 := by
  induction p generalizing s with
  | answer a => exact s.later_refl
  | refuse fault => exact s.later_refl
  | call c next ih => exact later_bind (c.later_run s) ih
  | scope body next ihBody ihNext => exact later_bind (later_transaction ihBody s) ihNext

end Ledger

end Referral
