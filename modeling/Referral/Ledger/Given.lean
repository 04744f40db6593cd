import Referral.Ledger.Balance
import Referral.Ledger.Transition
import Referral.Text.Plain

namespace Referral

inductive GivenFault where
  | refused (r : Report)
  | query (fault : QueryFault)
  | document (faults : List Schema.Fault)
  | unfit
  /-- There is no such entry, and the text of the identifier is too long to say so. -/
  | unsayable

namespace Given

def missing (id : Value) : GivenFault := id.plain?.elim .unsayable (.refused ∘ missingEntry id)

/-- The identifier that a look-up is made with; absent where nothing can be found. -/
def lookupId? : Value → Except GivenFault (Option String)
  | .text t => return t.string?
  | .list _ | .map _ => throw .unfit
  | _ => return none

def entryId (id : Value) : Except GivenFault String := do
  (← lookupId? id).elim (throw (missing id)) pure

def user? : Value → Option String
  | .text t => t.string?
  | _ => none

def find (s : Store) (id : Value) : Except GivenFault Entry := do
  (Ledger.find? s (← entryId id)).mapError .query

def userEntries (s : Store) (userId : Value) : Except GivenFault (List Entry) :=
  ((user? userId).elim (.ok []) (Ledger.userEntries s)).mapError .query

def balance (s : Store) (userId currency : Value) : Except GivenFault Balance := do
  let (userId, currency) ← ((Schema.Checked.app (.ok Prod.mk)
    ((Schema.text userId).within (.key "user_id"))).app
    ((Schema.textOrNull currency).within (.key "currency"))).mapError GivenFault.document
  (Ledger.balance s userId currency).mapError .query

def isNegative : Value → Except GivenFault Bool
  | .int n => return n < 0
  | .bool _ => return false
  | .double x => return x.lt .zero
  | _ => throw .unfit

def count : Value → Except GivenFault Int
  | .int n => return n
  | .bool b => return if b then 1 else 0
  | _ => throw .unfit

/-- One page of a user's entries. The page is looked at before the entries, and both before the
user. -/
def history (s : Store) (userId limit offset : Value) : Except GivenFault History := do
  let refused := GivenFault.refused ⟨.validation, LedgerError.negativePageMessage,
    [("limit", limit), ("offset", offset)]⟩
  if ← isNegative limit then throw refused
  if ← isNegative offset then throw refused
  let _ ← userEntries s userId
  let offset ← count offset
  let limit ← count limit
  let userId ← ((Schema.text userId).within (.key "user_id")).mapError GivenFault.document
  (Ledger.history s userId limit offset).mapError .query

def reversalReference? (id : Value) : Option Text := id.plain?.map (reversalMark ++ ·)

end Given

end Referral
