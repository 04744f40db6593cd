import Referral.Number.Double

namespace Referral.Shortest

structure Scientific where
  digits : Nat
  exponent : Int
  deriving DecidableEq

def compareScaled (a : Nat) (i : Int) (n : Nat) (j : Int) : Ordering :=
  compare (a * Nat.pow 10 i.toNat * Nat.pow 2 (-j).toNat)
    (n * Nat.pow 2 j.toNat * Nat.pow 10 (-i).toNat)

/-- Whether the decimal lies among the reals that round to `m * 2 ^ q`. Below a power of two the gap
is half as wide as above it, the least scale apart. -/
def readsBack (m : Nat) (q : Int) (d : Scientific) : Bool :=
  let low := if m = Double.binade && -1074 < q then 4 * m - 1 else 4 * m - 2
  let toLow := compareScaled d.digits d.exponent low (q - 2)
  let toHigh := compareScaled d.digits d.exponent (4 * m + 2) (q - 2)
  let closed := m % 2 == 0
  (toLow == .gt || (closed && toLow == .eq)) && (toHigh == .lt || (closed && toHigh == .eq))

/-- The least `k` with `m * 2 ^ q < 10 ^ k`, found among the neighbours of an estimate. -/
def magnitude (m : Nat) (q : Int) : Int :=
  let guess := (((m.log2 : Int) + q) * 30103).fdiv 100000
  if compareScaled 1 (guess - 1) m q == .gt then guess - 1
  else if compareScaled 1 guess m q == .gt then guess
  else if compareScaled 1 (guess + 1) m q == .gt then guess + 1
  else guess + 2

/-- The neighbours of `m * 2 ^ q` on the grid of multiples of `10 ^ grid`, the nearer one first; of
two equally near the even one. -/
def neighbours (m : Nat) (q grid : Int) : List Scientific :=
  let num := m * Nat.pow 2 q.toNat * Nat.pow 10 (-grid).toNat
  let den := Nat.pow 2 (-q).toNat * Nat.pow 10 grid.toNat
  let below := num / den
  let nearest := roundHalfEven num den
  if nearest = below then [⟨below, grid⟩, ⟨below + 1, grid⟩] else [⟨below + 1, grid⟩, ⟨below, grid⟩]

def stripZeros : Nat → Scientific → Scientific
  | 0, d => d
  | fuel + 1, d =>
    if d.digits = 0 ∨ d.digits % 10 ≠ 0 then d
    else stripZeros fuel ⟨d.digits / 10, d.exponent + 1⟩

def exact (m : Nat) (q : Int) : Scientific :=
  if 0 ≤ q then ⟨m * Nat.pow 2 q.toNat, 0⟩ else ⟨m * Nat.pow 5 (-q).toNat, q⟩

/-- The shortest decimal that reads back as `m * 2 ^ q`. Seventeen digits always suffice for a
double. -/
def decimal (m : Nat) (q : Int) : Scientific :=
  let k := magnitude m q
  let tries := (List.range 17).findSome? fun (n : Nat) =>
    (neighbours m q (k - (n + 1 : Nat))).find? (readsBack m q)
  let d := tries.getD (exact m q)
  stripZeros d.digits.log2 d

end Referral.Shortest
