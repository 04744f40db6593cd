import Referral.Rule.Service

namespace Referral

open Stacked (nest both)

def Value.looseDoubleWithin (v : Value) : Stacked (Option Double) := nest 1 do
  return (← v.looseWithin).map Text.looseDouble

/-- Whether a field's value stands in the operator's relation to an operand. The operand is looked
at first only where it is searched for. -/
def Operator.holdsWithin (op : Operator) (field operand : Value) : Stacked (Option Bool) :=
  nest 1 <|
    match op with
    | equals => both field.looseWithin operand.looseWithin fun t u => t = u
    | notEquals => both field.looseWithin operand.looseWithin fun t u => t ≠ u
    | greaterThan => both field.looseDoubleWithin operand.looseDoubleWithin fun x y => y.lt x
    | lessThan => both field.looseDoubleWithin operand.looseDoubleWithin fun x y => x.lt y
    | contains => both operand.looseWithin field.looseWithin fun u t =>
        occursIn u.symbols t.symbols
    | _ => return some false

def leafHoldsWithin (field : Value) (operator : Operator) (operand : Value) (context : Members) :
    Stacked Bool :=
  nest 1 <|
    match field with
    | .text name =>
      match lookup? context name with
      | some v => do return (← operator.holdsWithin v operand).getD false
      | none => return false
    | _ => return false

namespace Condition

mutual

/-- Whether the condition holds. Going through the children of a group takes two calls beside the
group's own. -/
def holdsWithin (context : Members) : Condition → Stacked Bool
  | leaf field operator operand _ _ => leafHoldsWithin field operator operand context
  | group .all children _ _ _ => nest 3 (allHoldWithin context children)
  | group .any children _ _ _ => nest 3 (anyHoldsWithin context children)
  | group _ _ _ _ _ => nest 1 (return false)

def allHoldWithin (context : Members) : List Condition → Stacked Bool
  | [] => return true
  | c :: cs => do
    if ← holdsWithin context c then allHoldWithin context cs else return false

def anyHoldsWithin (context : Members) : List Condition → Stacked Bool
  | [] => return false
  | c :: cs => do
    if ← holdsWithin context c then return true else anyHoldsWithin context cs

end

end Condition

namespace Rule

def holdsWithin (context : Members) (r : Rule) : Stacked Bool := nest 1 <|
  if r.enabled.isFalsy then return false
  else nest 2 (Condition.allHoldWithin context r.conditions)

def executeWithin (context : Members) (r : Rule) : Stacked (List Outcome) := nest 1 do
  return if ← r.holdsWithin context then r.actions.map Action.execute else []

def matchWithin (context : Members) (r : Rule) : Stacked (Option Match) := do
  let outcomes ← r.executeWithin context
  return if outcomes.isEmpty then none else some ⟨r.id, r.name, outcomes⟩

end Rule

def Engine.evaluateWithin (e : Engine) (context : Members) : Stacked (List Match) := nest 1 do
  return (← e.rules.mapM (Rule.matchWithin context)).filterMap id

def RuleService.evaluateWithin (s : RuleState) (context : Members) (room : Nat) :
    Except ShapeFault (List Match) :=
  inside (throw .tooDeep) 1 (fun room => do
    let engine ← Engine.ofList (← s.store.listWithin room)
    (engine.evaluateWithin context room).mapError fun _ => .tooDeep) room

abbrev StackedAuthoring := ReaderT Nat (ExceptT RuleError (StateM Supply))

namespace Authoring

open Schema (Step)

variable {α : Type}

def onStack (step : AuthoringM α) : StackedAuthoring α := fun _ s =>
  ((step s).1.mapError .authoring, (step s).2)

def nest (calls : Nat) (step : StackedAuthoring α) : StackedAuthoring α :=
  inside (fun s => (.error (.shape .tooDeep), s)) calls step

def looseTextWithin (v : Value) : StackedAuthoring (Option Text) := fun room s =>
  ((v.looseWithin room).mapError fun _ => .shape .tooDeep, s)

mutual

/-- The condition of a request. Going through its children takes one call beside its own. -/
def conditionWithin (source : Source) (path : List Step) :
    ConditionRequest → StackedAuthoring Condition
  | ⟨id, kind, field, operatorName, operand, children⟩ => nest 1 do
    match operatorName.bind Operator.ofName? with
    | none => onStack (refuse (path ++ [.key "operator"]) (.unknownOperator operatorName))
    | some operator =>
      let kind := (filled? kind).getD "custom"
      if !knownKinds.contains kind then onStack (refuse (path ++ [.key "type"]) (.unknownKind kind))
      else
        let id ← onStack (identifier source id "cond")
        if operator.isLogical then
          if children.isEmpty then
            onStack (refuse (path ++ [.key "children"]) (.noChildren (operatorName.getD "")))
          else
            let cs ← nest 1 (conditionsWithin source (path ++ [.key "children"]) 0 children)
            return .group operator cs (.text id) (.text kind) (.ofOption field)
        else
          match filled? field with
          | none => onStack (refuse (path ++ [.key "field"]) .noField)
          | some name =>
            match operand with
            | .null => return .leaf (.text name) operator .null (.text id) (.text kind)
            | v =>
              match ← looseTextWithin v with
              | none => onStack (refuse (path ++ [.key "value"]) .longOperand)
              | some t => return .leaf (.text name) operator (.text t) (.text id) (.text kind)

def conditionsWithin (source : Source) (path : List Step) (i : Nat) :
    List ConditionRequest → StackedAuthoring (List Condition)
  | [] => return []
  | r :: rs => do
    let c ← conditionWithin source (path ++ [.index i]) r
    let cs ← conditionsWithin source path (i + 1) rs
    return c :: cs

end

def ruleWithin (source : Source) (r : RuleRequest) : StackedAuthoring Rule := nest 1 do
  let name := String.ofList (Text.trimBy Text.isBlank (r.name.getD "").toList)
  if name.isEmpty then onStack (refuse [.key "name"] .missing)
  if r.conditions.isEmpty then onStack (refuse [.key "conditions"] .missing)
  if r.actions.isEmpty then onStack (refuse [.key "actions"] .missing)
  let now ← onStack fun s => (let (t, s) := s.readClock source; (.ok t, s))
  let id ← onStack fun s => (let (id, s) := s.takeId source "rule"; (.ok id, s))
  let cs ← nest 1 (conditionsWithin source [.key "conditions"] 0 r.conditions)
  let as ← onStack (actions source 0 r.actions)
  return ⟨.text id, .text name, .bool r.enabled, cs, as, now, now⟩

end Authoring

/-- The rule of a request. The store is asked for it two calls further in than this one. -/
def RuleService.createWithin (source : Source) (request : RuleRequest) (room : Nat) :
    RuleM Rule := do
  let r ← fun s =>
    match Authoring.ruleWithin source request room s.supply with
    | (result, supply) => (result, { s with supply := supply })
  insertWithin r (room - 2)
  return r

end Referral
