import Referral.Value

namespace Referral

inductive Key where
  | null
  | int (n : Int)
  | double (x : Double)
  | text (t : Text)
  /-- A NaN that was put somewhere, after so many others. -/
  | stray (earlier : Nat)
  deriving DecidableEq

namespace Key

def of? : Value → Option Key
  | .null => some .null
  | .bool b => some (.int (if b then 1 else 0))
  | .int n => some (.int n)
  | .double x => some ((x.integer?.map Key.int).getD (.double x))
  | .text t => some (.text t)
  | .list _ | .map _ => none

def isStray : Key → Bool
  | stray _ => true
  | _ => false

def toPut (used : List Key) (k : Key) : Key :=
  if k = .double .nan then .stray (used.filter isStray).length else k

end Key

end Referral
