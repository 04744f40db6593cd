
namespace Referral

inductive EntryKind where
  | credit
  | debit
  | reversal
  deriving DecidableEq

inductive Status where
  | pending
  | confirmed
  | paid
  | reversed
  deriving DecidableEq

namespace EntryKind

def name : EntryKind → String
  | credit => "credit"
  | debit => "debit"
  | reversal => "reversal"

def named : List (String × EntryKind) := [credit, debit, reversal].map fun k => (k.name, k)

end EntryKind

namespace Status

def name : Status → String
  | pending => "pending"
  | confirmed => "confirmed"
  | paid => "paid"
  | reversed => "reversed"

def all : List Status := [pending, confirmed, paid, reversed]

def named : List (String × Status) := all.map fun s => (s.name, s)

def ofName? (name : String) : Option Status := named.lookup name

def targets : Status → List Status
  | pending => [confirmed, reversed]
  | confirmed => [paid, reversed]
  | paid => [reversed]
  | reversed => []

def canBecome (current target : Status) : Bool := current.targets.contains target

end Status

end Referral
