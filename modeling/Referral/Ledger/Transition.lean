import Referral.Ledger.Entry
import Referral.Ledger.Error

namespace Referral

namespace Entry

def checkMove (e : Entry) (target : Status) : Except LedgerError Unit :=
  if target = .reversed ∧ e.status = .reversed then throw (.alreadyReversed e.id)
  else if e.status.canBecome target then return ()
  else throw (.invalidTransition e.id e.status target)

def move (e : Entry) (target : Status) (at_ : Timestamp) : Except LedgerError Entry := do
  e.checkMove target
  return e.withStatus target at_

end Entry

def reversalMark : String := "reversal-"

def reversalReference (id : String) : String := reversalMark ++ id

def defaultReason : String := "No reason provided"

def notedReason (reason : Value) : Value := reason.orElse (.text defaultReason)

/-- The entry that reverses another: reversed from the start, with the same owner, amount and
currency. -/
def Entry.reversal (e : Entry) (id : String) (reason : Value) (at_ : Timestamp) : Entry where
  id := id
  userId := e.userId
  kind := .reversal
  amount := e.amount
  currency := e.currency
  status := .reversed
  reference := reversalReference e.id
  description := some ("Reversal: " ++ e.description.getD "None")
  metadata := [("originalEntryId", .text e.id), ("reason", notedReason reason)]
  createdAt := at_
  updatedAt := at_

end Referral
