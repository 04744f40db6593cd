import Referral.Number.Rounding

namespace Referral

/-- The doubles that share one scale. -/
def Double.binade : Nat := Nat.pow 2 52

/-- The count of ranks, and so the place of infinity. -/
def Double.ranks : Nat := 2047 * binade

/-- A binary64 number. A finite one is its sign and its rank: the number of doubles between zero and
it. -/
inductive Double where
  | nan
  | infinity (negative : Bool)
  | finite (negative : Bool) (rank : Fin Double.ranks)
  deriving DecidableEq

namespace Double

/-- The magnitude of rank `r` is `mantissa r * 2 ^ scale r`. -/
def mantissa (rank : Nat) : Nat := if rank < binade then rank else binade + rank % binade

def scale (rank : Nat) : Int := (max (rank / binade) 1 : Nat) - 1075

/-- The double of the given sign and rank; ranks past the last are infinite. -/
def ofRank (negative : Bool) (rank : Nat) : Double :=
  if h : rank < ranks then .finite negative ⟨rank, h⟩ else .infinity negative

def zero : Double := ofRank false 0

def isNaN : Double → Bool
  | nan => true
  | _ => false

def isZero : Double → Bool
  | finite _ rank => rank.val = 0
  | _ => false

def isFinite : Double → Bool
  | finite .. => true
  | _ => false

def integer? : Double → Option Int
  | finite negative rank =>
    let m := mantissa rank
    let q := scale rank
    if 0 ≤ q then some (signed negative (m * Nat.pow 2 q.toNat))
    else if m % Nat.pow 2 (-q).toNat = 0 then some (signed negative (m / Nat.pow 2 (-q).toNat))
    else none
  | _ => none

def ratio? : Double → Option (Int × Nat)
  | finite negative rank =>
    let q := scale rank
    some (signed negative (mantissa rank * Nat.pow 2 q.toNat), Nat.pow 2 (-q).toNat)
  | _ => none

def truncated? (x : Double) : Option Int := x.ratio?.map fun (num, den) => num.tdiv den

/-- The place on the line of doubles; both zeros share one, and NaN has none. -/
def place? : Double → Option Int
  | nan => none
  | infinity negative => some (signed negative ranks)
  | finite negative rank => some (signed negative rank)

def lt (x y : Double) : Bool :=
  match x.place?, y.place? with
  | some a, some b => a < b
  | _, _ => false

def same (x y : Double) : Bool :=
  match x.place?, y.place? with
  | some a, some b => a = b
  | _, _ => false

/-- The rank of the double nearest to `num / den`; a tie goes to the even rank. -/
def nearestRank (num den : Nat) : Nat :=
  if num = 0 then 0
  else
    let shifted (q : Int) : Nat × Nat := (num * Nat.pow 2 (-q).toNat, den * Nat.pow 2 q.toNat)
    let guess : Int := max ((num.log2 : Int) - den.log2 - 53) (-1074)
    let q := if (shifted guess).1 / (shifted guess).2 < 2 * binade then guess else guess + 1
    (q + 1074).toNat * binade + roundHalfEven (shifted q).1 (shifted q).2

/-- The double nearest to `coefficient * 10 ^ exponent`. Magnitudes beyond `10 ^ 400` are infinite
and those below `10 ^ -400` are zero, so no power larger than the text of the number is computed. -/
def ofDecimal (negative : Bool) (coefficient : Nat) (exponent : Int) : Double :=
  if coefficient = 0 then ofRank negative 0
  else if 400 < exponent then .infinity negative
  else if exponent + coefficient.log2 < -401 then ofRank negative 0
  else ofRank negative
    (nearestRank (coefficient * Nat.pow 10 exponent.toNat) (Nat.pow 10 (-exponent).toNat))

def ofRatio (num : Int) (den : Nat) : Double :=
  ofRank (decide (num < 0)) (nearestRank num.natAbs den)

def ofInt (n : Int) : Double := ofDecimal (decide (n < 0)) n.natAbs 0

end Double

end Referral
