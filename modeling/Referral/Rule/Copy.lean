import Referral.Rule.Basic

namespace Referral

namespace Value

mutual

/-- A copy takes two steps for a value, and two more for every list or mapping around it. -/
def copySteps : Value → Nat
  | list elems => elemsCopySteps elems + 2
  | map members => membersCopySteps members + 2
  | _ => 2

def elemsCopySteps : List Value → Nat
  | [] => 1
  | v :: vs => max v.copySteps (elemsCopySteps vs)

def membersCopySteps : List (Text × Value) → Nat
  | [] => 1
  | (_, v) :: rest => max v.copySteps (membersCopySteps rest)

end

end Value

namespace Condition

mutual

/-- A condition takes four steps for its members, and two more for the list of its children. -/
def copySteps : Condition → Nat
  | leaf field operator operand id kind =>
    Value.elemsCopySteps [field, operator.toValue, operand, id, kind] + 4
  | group operator children id kind field =>
    max (listCopySteps children + 2)
      (Value.elemsCopySteps [operator.toValue, id, kind, field]) + 4

def listCopySteps : List Condition → Nat
  | [] => 1
  | c :: cs => max c.copySteps (listCopySteps cs)

end

end Condition

def Action.copySteps (a : Action) : Nat :=
  max (Value.elemsCopySteps (a.params.map Prod.snd) + 2)
    (Value.elemsCopySteps [a.kind.toValue, a.id]) + 4

def Rule.copySteps (r : Rule) : Nat :=
  max (Value.elemsCopySteps [r.id, r.name, r.enabled])
    (max (Condition.listCopySteps r.conditions)
      ((r.actions.map Action.copySteps).foldl max 1) + 2) + 4

/-- The calls that the usual stack has left for a copy. -/
def copyLimit : Nat := 990

end Referral
