import Referral.Number.Decimal
import Referral.Number.Rounding

namespace Referral.Decimal

def precision : Nat := 28

def topPower : Int := 999999

inductive Fault where
  | overflow
  | tooManyDigits
  deriving DecidableEq

def neg (d : Decimal) : Decimal := { d with negative := !d.negative }

def bottomPower : Int := -1000026

def withoutLast (count coefficient : Nat) : Nat :=
  if digitCount coefficient < count then 0 else roundHalfEven coefficient (Nat.pow 10 count)

def rounded (d : Decimal) : Decimal :=
  let extra := max (digitCount d.coefficient - precision) (bottomPower - d.exponent).toNat
  if extra = 0 then d
  else
    let c := withoutLast extra d.coefficient
    if c = Nat.pow 10 precision then
      ⟨d.negative, Nat.pow 10 (precision - 1), d.exponent + extra + 1⟩
    else ⟨d.negative, c, d.exponent + extra⟩

/-- The lower operand of a sum, made short when it is out of reach of every digit that counts. What
counts is the last digit of the upper operand and the last one that the sum keeps. An operand below
both leaves the same rounded sum as any other of its sign, so the least one at that place stands for
it. -/
def withinReach (upper lower : Decimal) : Decimal :=
  let reach := upper.exponent + min (-1) ((digitCount upper.coefficient : Int) - (precision + 2))
  if lower.adjusted < reach then ⟨lower.negative, min lower.coefficient 1, reach⟩ else lower

def scaledTo (exponent : Int) (d : Decimal) : Int :=
  signed d.negative (d.coefficient * Nat.pow 10 (d.exponent - exponent).toNat)

def sumOrdered (upper lower : Decimal) : Decimal :=
  if upper.isZero then
    ⟨lower.negative && (upper.negative || !lower.isZero), lower.coefficient, lower.exponent⟩
  else
    let lower := withinReach upper lower
    let total := scaledTo lower.exponent upper + scaledTo lower.exponent lower
    ⟨decide (total < 0), total.natAbs, lower.exponent⟩

/-- The exact sum, written with the lesser of the two exponents and then rounded. -/
def sum (a b : Decimal) : Except Fault Decimal :=
  let s := rounded (if a.exponent < b.exponent then sumOrdered b a else sumOrdered a b)
  if !s.isZero && topPower < s.adjusted then throw .overflow else return s

/-- The decimal in hundredths, a tie away from zero. -/
def toCents (d : Decimal) : Except Fault Decimal :=
  let within (c : Nat) : Except Fault Decimal :=
    if precision < digitCount c then throw .tooManyDigits else return ⟨d.negative, c, -2⟩
  if d.isZero then return ⟨d.negative, 0, -2⟩
  else if precision < d.adjusted + 3 then throw .tooManyDigits
  else if -2 ≤ d.exponent then within (d.coefficient * Nat.pow 10 (d.exponent + 2).toNat)
  else if d.adjusted < -4 then within 0
  else within (roundHalfUp d.coefficient (Nat.pow 10 (-2 - d.exponent).toNat))

end Referral.Decimal
