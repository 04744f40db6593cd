import Referral.Ledger.Store
import Referral.Number.DecimalSum

namespace Referral

inductive QueryFault where
  | sum (fault : Decimal.Fault)
  /-- Some times have an offset and some have none, so they have no order. -/
  | mixedTimes
  | refused (error : LedgerError)

structure Balance where
  userId : String
  balance : Decimal
  currency : Option String
  totalEntries : Nat
  lastTransactionAt : Option Timestamp

structure History where
  userId : String
  entries : List Entry
  totalCount : Nat
  currentBalance : Decimal

namespace Ledger

def comparable (entries : List Entry) : Bool :=
  entries.all (·.createdAt.isAware) || entries.all (!·.createdAt.isAware)

def newestFirst (entries : List Entry) : Except QueryFault (List Entry) :=
  if comparable entries then
    return entries.mergeSort fun a b => b.createdAt.instant ≤ a.createdAt.instant
  else throw .mixedTimes

def newest? : List Entry → Option Entry
  | [] => none
  | e :: rest =>
    some (rest.foldl (fun m x => if m.createdAt.instant < x.createdAt.instant then x else m) e)

def contribution (e : Entry) : Option Decimal :=
  if e.status = .reversed then none
  else
    match e.kind with
    | .credit => some e.amount
    | .debit | .reversal => some e.amount.neg

def zero : Decimal := ⟨false, 0, 0⟩

def total (entries : List Entry) : Except Decimal.Fault Decimal :=
  (entries.filterMap contribution).foldlM Decimal.sum zero

def counted (s : Store) (userId : String) (currency : Option String) : List Entry :=
  (s.ofUser userId).filter fun e => currency.all (e.currency = ·)

def balance (s : Store) (userId : String) (currency : Option String) :
    Except QueryFault Balance := do
  let entries := counted s userId currency
  let sum ← (total entries).mapError .sum
  if !comparable entries then throw .mixedTimes
  let cents ← sum.toCents.mapError .sum
  return ⟨userId, cents, currency, entries.length, (newest? entries).map (·.createdAt)⟩

def userEntries (s : Store) (userId : String) : Except QueryFault (List Entry) :=
  newestFirst (s.ofUser userId)

def allEntries (s : Store) : Except QueryFault (List Entry) := newestFirst s.list

def history (s : Store) (userId : String) (limit offset : Int) : Except QueryFault History := do
  if limit < 0 || offset < 0 then throw (.refused (.negativePage limit offset))
  let entries ← userEntries s userId
  let current ← balance s userId none
  return ⟨userId, (entries.drop offset.toNat).take limit.toNat, entries.length, current.balance⟩

def find? (s : Store) (id : String) : Except QueryFault Entry :=
  match s.find? id with
  | some e => return e
  | none => throw (.refused (.entryNotFound id))

end Ledger

def History.fits (h : History) : Bool := h.entries.all (Entry.fits 0)

def Balance.toValue (b : Balance) : Value :=
  .map [("userId", .text b.userId), ("balance", .text b.balance.text),
    ("currency", .ofOption b.currency), ("totalEntries", .ofNat b.totalEntries),
    ("lastTransactionAt", .ofOption (b.lastTransactionAt.map Schema.timeStamp))]

def History.toValue (h : History) : Value :=
  .map [("userId", .text h.userId), ("entries", .list (h.entries.map Entry.toValue)),
    ("totalCount", .ofNat h.totalCount), ("currentBalance", .text h.currentBalance.text)]

end Referral
