import Referral.Number.Decimal
import Referral.Number.DoubleText
import Referral.Schema.Checked

namespace Referral.Schema

def decimal (v : Value) : Checked Decimal :=
  let quantity? : Checked Quantity :=
    match v with
    | .int n => .ok (.finite (.ofInt n))
    | .double x => (Quantity.read? x.text).elim (.fail .malformedDecimal) .ok
    | .text t => (t.string?.bind Quantity.read?).elim (.fail .malformedDecimal) .ok
    | _ => .fail .notDecimal
  match quantity? with
  | .ok (.finite d) => .ok d
  | .ok _ => .fail .notFinite
  | .error faults => .error faults

def maxDigits : Nat := 20

def maxPlaces : Nat := 8

/-- How many digits a decimal is written with in full, and how many of them follow the point. -/
def extent (d : Decimal) : Nat × Nat :=
  let digits := digitCount d.coefficient
  if 0 ≤ d.exponent then (digits + d.exponent.toNat, 0)
  else (max digits (-d.exponent).toNat, (-d.exponent).toNat)

/-- Each limit is tried on the amount as written and without trailing zeros, and one of the two has
to keep it. -/
def rewardAmount (d : Decimal) : Checked Decimal :=
  let (digits, places) := extent d
  let (digits', places') := extent d.normalized
  if maxDigits < digits && maxDigits < digits' then .fail (.tooManyDigits maxDigits)
  else if maxPlaces < places && maxPlaces < places' then .fail (.tooManyPlaces maxPlaces)
  else if maxDigits - maxPlaces < digits - places && maxDigits - maxPlaces < digits' - places' then
    .fail (.tooManyWholeDigits (maxDigits - maxPlaces))
  else if d.isNegative then .fail .belowZero
  else .ok d

end Referral.Schema
