import Referral.Schema.Checked

namespace Referral

namespace Value

mutual

def numbersOnly : Value → Value
  | double x => if x.isFinite then double x else null
  | list elems => list (elemsNumbersOnly elems)
  | map members => map (membersNumbersOnly members)
  | v => v

def elemsNumbersOnly : List Value → List Value
  | [] => []
  | v :: vs => v.numbersOnly :: elemsNumbersOnly vs

def membersNumbersOnly : List (Text × Value) → List (Text × Value)
  | [] => []
  | (key, v) :: rest => (key, v.numbersOnly) :: membersNumbersOnly rest

end

mutual

/-- How many values lie one in another at most, the value itself included. -/
def depth : Value → Nat
  | list elems => elemsDepth elems + 1
  | map members => membersDepth members + 1
  | _ => 1

def elemsDepth : List Value → Nat
  | [] => 0
  | v :: vs => max v.depth (elemsDepth vs)

def membersDepth : List (Text × Value) → Nat
  | [] => 0
  | (_, v) :: rest => max v.depth (membersDepth rest)

end

end Value

namespace Schema

/-- A free-form value is not written at this depth, nor is a document read that holds itself so
often. -/
def depthLimit : Nat := 255

def fits (outer : Nat) (v : Value) : Bool := outer + v.depth < depthLimit

def membersFit (outer : Nat) (members : Members) : Bool := members.all fun (_, v) => fits outer v

end Schema

end Referral
