import Referral.Number.Digits
import Referral.Number.Shortest

namespace Referral.Double

/-- `m * 2 ^ q` in units of the last of so many places. -/
def inPlaces (m : Nat) (q : Int) (places : Nat) : Nat :=
  roundHalfEven (m * Nat.pow 2 q.toNat * Nat.pow 10 places) (Nat.pow 2 (-q).toNat)

def inDigits (m : Nat) (q : Int) (count : Nat) : Nat × Int :=
  let k := Shortest.magnitude m q
  let shift := (count : Int) - k
  let n := roundHalfEven (m * Nat.pow 2 q.toNat * Nat.pow 10 shift.toNat)
    (Nat.pow 2 (-q).toNat * Nat.pow 10 (-shift).toNat)
  if m = 0 then (0, 0)
  else if n = Nat.pow 10 count then (Nat.pow 10 (count - 1), k)
  else (n, k - 1)

/-- Digits with a point before the last so many of them. Where there are none, `point` tells whether
the point is written. -/
def pointed (point : Bool) (places : Nat) (digits : String) : String :=
  let ds := digits.toList
  let whole := String.ofList (ds.take (ds.length - places))
  let fraction := String.ofList (ds.drop (ds.length - places))
  if places = 0 && !point then whole else whole ++ "." ++ fraction

def withoutEndZeros (digits : String) : String :=
  if digits.toList.contains '.' then
    let rest := digits.toList.reverse.dropWhile (· = '0')
    String.ofList (if rest.head? = some '.' then rest.drop 1 else rest).reverse
  else digits

def fixedText (point : Bool) (places m : Nat) (q : Int) : String :=
  pointed point places (padded (places + 1) (decimalDigits (inPlaces m q places)))

def powerText (power : Int) : String :=
  (if power < 0 then "e-" else "e+") ++ padded 2 (decimalDigits power.natAbs)

def scientificText (point : Bool) (places m : Nat) (q : Int) : String :=
  let (digits, power) := inDigits m q (places + 1)
  pointed point places (padded (places + 1) (decimalDigits digits)) ++ powerText power

/-- The magnitude in so many digits, positional while the first of them stands for `10 ^ -4` or more
and the last for a whole number or a place. With `point`, zeros at the end stay. -/
def generalText (point : Bool) (precision m : Nat) (q : Int) : String :=
  let count := max precision 1
  let (digits, power) := inDigits m q count
  let short (s : String) : String := if point then s else withoutEndZeros s
  if -4 ≤ power && power < count then
    let places := ((count : Int) - 1 - power).toNat
    short (pointed point places (padded (places + 1) (decimalDigits digits)))
  else short (pointed point (count - 1) (padded count (decimalDigits digits))) ++ powerText power

end Referral.Double
