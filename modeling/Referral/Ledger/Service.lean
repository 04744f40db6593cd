import Referral.Ledger.Store
import Referral.Ledger.Transition
import Referral.Log.Event
import Referral.Rule.Action
import Referral.Supply
import Referral.Text.Plain

namespace Referral

structure LedgerConfig where
  source : Source
  defaultCurrency : String

/-- The store, the count of what was taken from the source, and how many look-ups by reference are
still to miss what a concurrent writer has just added. -/
structure LedgerState where
  store : Store
  supply : Supply
  staleReads : Nat

inductive Receipt where
  | created (entry : Entry)
  | duplicate (entry : Entry)
  | confirmed (entry : Entry)
  | paid (entry : Entry)
  | reversed (entry reversal : Entry)

namespace Receipt

def entry : Receipt → Entry
  | created e | duplicate e | confirmed e | paid e | reversed e _ => e

def isDuplicate : Receipt → Bool
  | duplicate _ => true
  | _ => false

def reversal? : Receipt → Option Entry
  | reversed _ r => some r
  | _ => none

def toValue (r : Receipt) : Value :=
  .map [("success", .bool true), ("entry", r.entry.toValue), ("isDuplicate", .bool r.isDuplicate),
    ("reversalEntry", (r.reversal?.map Entry.toValue).getD .null)]

/-- Whether the answer that tells of it can be written: its entries lie one deeper in it than on
their own. -/
def fits (r : Receipt) : Bool := r.entry.fits 1 && r.reversal?.all (Entry.fits 1)

def event : Receipt → Event
  | created e =>
    .info "reward_created" [("entry_id", .text e.id), ("user_id", .text e.userId),
      ("reference_id", .text e.reference), ("amount", .text e.amount.text),
      ("currency", .text e.currency)]
  | duplicate e =>
    .info "reward_duplicate" [("entry_id", .text e.id), ("reference_id", .text e.reference)]
  | confirmed e => .info "reward_confirmed" [("entry_id", .text e.id)]
  | paid e => .info "reward_paid" [("entry_id", .text e.id)]
  | reversed e r =>
    .info "reward_reversed" [("entry_id", .text e.id), ("reversal_entry_id", .text r.id),
      ("reason", Members.get r.metadata "reason")]

end Receipt

abbrev LedgerM := ExceptT LedgerError (StateM LedgerState)

namespace Ledger

def takeId (config : LedgerConfig) : LedgerM String := fun s =>
  let (id, supply) := s.supply.takeId config.source "entry"
  (.ok id, { s with supply := supply })

def readClock (config : LedgerConfig) : LedgerM Timestamp := fun s =>
  let (now, supply) := s.supply.readClock config.source
  (.ok now, { s with supply := supply })

def transaction {α : Type} (body : LedgerM α) : LedgerM α := fun s =>
  let (scope, store) := s.store.openScope
  match body { s with store := store } with
  | (.ok a, s) => (.ok a, { s with store := s.store.closeScope scope false })
  | (.error e, s) => (.error e, { s with store := s.store.closeScope scope true })

/-- Looks an entry up by its reference; a stale look-up finds nothing. -/
def findReference (reference : String) : LedgerM (Option Entry) := fun s =>
  match s.staleReads with
  | 0 => (.ok (s.store.findReference? reference), s)
  | n + 1 => (.ok none, { s with staleReads := n })

def insert (e : Entry) : LedgerM (Option LedgerError) := fun s =>
  match s.store.insert e with
  | .ok store => (.ok none, { s with store := store })
  | .error fault => (.ok (some fault), s)

def find (id : String) : LedgerM Entry := fun s =>
  match s.store.find? id with
  | some e => (.ok e, s)
  | none => (.error (.entryNotFound id), s)

def update (id : String) (status : Status) (at_ : Timestamp) : LedgerM Entry := fun s =>
  match s.store.update id status at_ with
  | .ok (e, store) => (.ok e, { s with store := store })
  | .error fault => (.error fault, s)

def checkMove (e : Entry) (target : Status) : LedgerM Unit := fun s => (e.checkMove target, s)

def filled (text : Option String) (default : String) : String :=
  match text with
  | some t => if t.isEmpty then default else t
  | none => default

def newEntry (config : LedgerConfig) (request : RewardRequest) (id : String) (now : Timestamp) :
    Entry where
  id := id
  userId := request.userId
  kind := .credit
  amount := request.amount
  currency := filled request.currency config.defaultCurrency
  status := .pending
  reference := request.reference
  description := some (filled request.description defaultDescription)
  metadata := request.metadata
  createdAt := now
  updatedAt := now

/-- Makes a reward. Where the first look-up misses an entry that the insertion then meets, the
second look-up answers. -/
def create (config : LedgerConfig) (request : RewardRequest) : LedgerM Receipt :=
  transaction do
    match ← findReference request.reference with
    | some e => return .duplicate e
    | none =>
      let now ← readClock config
      let id ← takeId config
      let e := newEntry config request id now
      match ← insert e with
      | none => return .created e
      | some fault =>
        match ← findReference request.reference with
        | some winner => return .duplicate winner
        | none => throw fault

structure ActionReward where
  userId : Value
  reference : Value
  amount : Value
  currency : Value
  description : Value
  metadata : Value

def actionAmount (amount : Value) : Except LedgerError Decimal :=
  match amount.plain?.bind Text.string? with
  | none => throw .unreadableAmount
  | some shown =>
    match Quantity.read? shown with
    | none => throw .unreadableAmount
    | some (.finite d) => if d.isNegative then throw (.unacceptableAmount shown) else return d
    | some _ => throw (.unacceptableAmount shown)

def actionRequest (a : ActionReward) : Except LedgerError RewardRequest := do
  let amount ← actionAmount a.amount
  let members : Members :=
    [("user_id", a.userId), ("amount", .null), ("reference_id", a.reference),
      ("currency", a.currency), ("description", a.description),
      ("metadata", a.metadata.orElse (.map []))]
  match RewardRequest.ofMembers (fun _ => Schema.rewardAmount amount) members with
  | .ok request => return request
  | .error (fault :: _) => throw (.rejectedReward fault)
  | .error [] => throw .unreadableAmount

def createFromAction (config : LedgerConfig) (a : ActionReward) : LedgerM Receipt := do
  let request ← liftM (actionRequest a)
  create config request

def createFromActionWithin (config : LedgerConfig) (a : ActionReward) (room : Nat)
    (s : LedgerState) : Except StackFault (Except LedgerError Receipt) × LedgerState :=
  match Stacked.nest 1 a.amount.plainWithin room with
  | .error fault => (.error fault, s)
  | .ok none => (.ok (.error .unreadableAmount), s)
  | .ok (some shown) =>
    let (done, s) := createFromAction config { a with amount := .text shown } s
    (.ok done, s)

def moveTo (config : LedgerConfig) (id : String) (target : Status) : LedgerM Entry :=
  transaction do
    let e ← find id
    checkMove e target
    update id target (← readClock config)

def confirm (config : LedgerConfig) (id : String) : LedgerM Receipt :=
  return .confirmed (← moveTo config id .confirmed)

def pay (config : LedgerConfig) (id : String) : LedgerM Receipt :=
  return .paid (← moveTo config id .paid)

def reverse (config : LedgerConfig) (id : String) (reason : Option String) : LedgerM Receipt :=
  transaction do
    let e ← find id
    checkMove e .reversed
    let now ← readClock config
    let against := e.reversal (← takeId config) (.ofOption reason) now
    let updated ← update id .reversed now
    match ← insert against with
    | none => return .reversed updated against
    | some fault => throw fault

inductive Command where
  | create (request : RewardRequest)
  | createFromAction (action : ActionReward)
  | confirm (id : String)
  | pay (id : String)
  | reverse (id : String) (reason : Option String)

def perform (config : LedgerConfig) : Command → LedgerM Receipt
  | .create request => create config request
  | .createFromAction action => createFromAction config action
  | .confirm id => confirm config id
  | .pay id => pay config id
  | .reverse id reason => reverse config id reason

end Ledger

end Referral
