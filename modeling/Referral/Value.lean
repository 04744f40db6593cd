import Referral.Number.Double
import Referral.Table
import Referral.Text.Basic

namespace Referral

inductive Value where
  | null
  | bool (b : Bool)
  | int (n : Int)
  | double (x : Double)
  | text (t : Text)
  | list (elems : List Value)
  | map (members : List (Text × Value))
  deriving Inhabited

/-- The members of a mapping, in written order. -/
abbrev Members := List (Text × Value)

namespace Members

def value? (members : Members) (key : Text) : Option Value := members.lookup key

def get (members : Members) (key : Text) : Value := (members.value? key).getD .null

end Members

namespace Value

def isFalsy : Value → Bool
  | null => true
  | bool b => !b
  | int n => n = 0
  | double x => x.isZero
  | text t => t.isEmpty
  | list elems => elems.isEmpty
  | map members => members.isEmpty

def orElse (v default : Value) : Value := if v.isFalsy then default else v

def ofOption (s : Option String) : Value := (s.map fun s => text s).getD null

def ofNat (n : Nat) : Value := int n

end Value

end Referral
