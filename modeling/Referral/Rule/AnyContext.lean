import Referral.Rule.Service

namespace Referral

namespace Condition

/-- Whether a leaf holds in a value of any kind. A list and a text can be searched for a field but
hold no value for it, so a leaf whose field is found there fails. -/
def leafHoldsIn? (field : Value) (operator : Operator) (operand : Value) (context : Value) :
    Option Bool :=
  let found (there : Bool) : Option Bool := if there then none else some false
  match context, field with
  | .map members, _ => some (leafHolds field operator operand members)
  | .list elems, .text name =>
    found (elems.any fun
      | .text t => t = name
      | _ => false)
  | .text t, .text name => found (occursIn name.symbols t.symbols)
  | _, .text _ => none
  | _, _ => some false

mutual

/-- Whether the condition holds; absent where a leaf that is reached fails. -/
def holdsIn? (context : Value) : Condition → Option Bool
  | leaf field operator operand _ _ => leafHoldsIn? field operator operand context
  | group .all children _ _ _ => allHoldIn? context children
  | group .any children _ _ _ => anyHoldsIn? context children
  | group _ _ _ _ _ => some false

def allHoldIn? (context : Value) : List Condition → Option Bool
  | [] => some true
  | c :: cs =>
    match holdsIn? context c with
    | some true => allHoldIn? context cs
    | result => result

def anyHoldsIn? (context : Value) : List Condition → Option Bool
  | [] => some false
  | c :: cs =>
    match holdsIn? context c with
    | some false => anyHoldsIn? context cs
    | result => result

end

mutual

@[simp] theorem holdsIn?_map (context : Members) (c : Condition) :
    holdsIn? (.map context) c = some (holds context c) := by
  match c with
  | leaf .. => simp [holdsIn?, leafHoldsIn?, holds]
  | group .all children .. => simp [holdsIn?, holds, allHoldIn?_map context children]
  | group .any children .. => simp [holdsIn?, holds, anyHoldsIn?_map context children]
  | group .equals .. | group .notEquals .. | group .greaterThan .. | group .lessThan ..
  | group .contains .. | group (.other _) .. => simp [holdsIn?, holds]

theorem allHoldIn?_map (context : Members) (cs : List Condition) :
    allHoldIn? (.map context) cs = some (allHold context cs) := by
  match cs with
  | [] => simp [allHoldIn?, allHold]
  | c :: cs =>
    simp only [allHoldIn?, allHold, holdsIn?_map context c, allHoldIn?_map context cs]
    cases holds context c <;> simp

theorem anyHoldsIn?_map (context : Members) (cs : List Condition) :
    anyHoldsIn? (.map context) cs = some (anyHolds context cs) := by
  match cs with
  | [] => simp [anyHoldsIn?, anyHolds]
  | c :: cs =>
    simp only [anyHoldsIn?, anyHolds, holdsIn?_map context c, anyHoldsIn?_map context cs]
    cases holds context c <;> simp

end

end Condition

namespace Rule

def holdsIn? (context : Value) (r : Rule) : Option Bool :=
  if r.enabled.isFalsy then some false else Condition.allHoldIn? context r.conditions

def executeIn? (context : Value) (r : Rule) : Option (List Outcome) :=
  (r.holdsIn? context).map fun holds => if holds then r.actions.map Action.execute else []

end Rule

def Engine.evaluateIn? (e : Engine) (context : Value) : Option (List Match) := do
  let executed ← e.rules.mapM fun r => do return (r, ← r.executeIn? context)
  return executed.filterMap fun (r, outcomes) =>
    if outcomes.isEmpty then none else some ⟨r.id, r.name, outcomes⟩

def RuleService.evaluateIn (s : RuleState) (context : Value) :
    Except ShapeFault (Option (List Match)) :=
  return (← Engine.ofList s.store.list).evaluateIn? context

end Referral
