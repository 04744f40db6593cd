import Referral.Number.Digits
import Referral.Text.Numeral

namespace Referral

/-- The decimal `± coefficient * 10 ^ exponent`. -/
structure Decimal where
  negative : Bool
  coefficient : Nat
  exponent : Int
  deriving DecidableEq

def digitCount (n : Nat) : Nat := (Nat.toDigits 10 n).length

namespace Decimal

/-- The power of ten that the first digit stands for. -/
def adjusted (d : Decimal) : Int := d.exponent + digitCount d.coefficient - 1

def isZero (d : Decimal) : Bool := d.coefficient = 0

def isNegative (d : Decimal) : Bool := d.negative && !d.isZero

def ofInt (n : Int) : Decimal := ⟨decide (n < 0), n.natAbs, 0⟩

/-- The text of a decimal: positional while no zeros have to be added on the right and at most six
on the left of the digits, else with an exponent. -/
def text (d : Decimal) : String :=
  let ds := Nat.toDigits 10 d.coefficient
  let point := d.exponent + ds.length
  let magnitude :=
    if d.exponent ≤ 0 && -6 < point then
      if d.exponent = 0 then String.ofList ds
      else if point ≤ 0 then "0." ++ String.ofList (List.replicate (-point).toNat '0' ++ ds)
      else String.ofList (ds.take point.toNat) ++ "." ++ String.ofList (ds.drop point.toNat)
    else
      let tail := if ds.length = 1 then "" else "." ++ String.ofList (ds.drop 1)
      let sign := if d.adjusted < 0 then "-" else "+"
      String.ofList (ds.take 1) ++ tail ++ "E" ++ sign ++ decimalDigits d.adjusted.natAbs
  if d.negative then "-" ++ magnitude else magnitude

/-- The same number without trailing zeros in its coefficient; zero gets the exponent zero. The fuel
is the number of zeros that may go. -/
def dropZeros : Nat → Decimal → Decimal
  | 0, d => d
  | fuel + 1, d =>
    if d.coefficient % 10 ≠ 0 then d
    else dropZeros fuel ⟨d.negative, d.coefficient / 10, d.exponent + 1⟩

def normalized (d : Decimal) : Decimal :=
  if d.isZero then ⟨d.negative, 0, 0⟩ else dropZeros (digitCount d.coefficient) d

def inRange (d : Decimal) : Bool :=
  -1999999999999999997 ≤ d.exponent &&
    (if d.isZero then d.exponent else d.adjusted) ≤ 999999999999999999

end Decimal

inductive Quantity where
  | finite (d : Decimal)
  | infinite (negative : Bool)
  | nan
  deriving DecidableEq

namespace Quantity

def plainDigit (c : Char) : Char :=
  match Text.digitValue? c with
  | some d => Char.ofNat (48 + d)
  | none => c

def isNaN (word : String) : Bool :=
  let body := (word.toList.reverse.dropWhile Char.isDigit).reverse
  String.ofList body = "nan" || String.ofList body = "snan"

def read? (text : String) : Option Quantity :=
  let s := ((Text.trimBy Text.isBlank text.toList).filter (· ≠ '_')).map plainDigit
  let (negative, unsigned) := Text.takeSign s
  let word := String.ofList (unsigned.map Char.toLower)
  if word = "inf" || word = "infinity" then some (.infinite negative)
  else if isNaN word then some .nan
  else
    match Text.Numeral.take? unsigned with
    | some (n, []) =>
      let d : Decimal := ⟨negative, n.coefficient, n.scale⟩
      if d.inRange then some (.finite d) else none
    | _ => none

end Quantity

end Referral
