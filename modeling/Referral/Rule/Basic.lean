import Referral.Rule.Action
import Referral.Rule.Condition
import Referral.Supply
import Referral.Time.Iso

namespace Referral

structure Rule where
  id : Value
  name : Value
  enabled : Value
  conditions : List Condition
  actions : List Action
  createdAt : Timestamp
  updatedAt : Timestamp

inductive GivenActions where
  | mappings (ms : List ActionMapping)
  | value (v : Value)

structure RuleMapping where
  id : Value
  name : Value
  enabled : Value
  conditions : Value
  actions : GivenActions
  createdAt : Value
  updatedAt : Value

namespace GivenActions

def read : GivenActions → Except ShapeFault (List Action)
  | mappings ms => ms.mapM Action.ofMapping
  | value (.list elems) => elems.mapM Action.ofValue
  | value v =>
    if v.isFalsy then return []
    else
      match v with
      | .text _ | .map _ => throw .notMapping
      | _ => throw .unlistable

def toValue : GivenActions → Value
  | mappings ms => .list (ms.map ActionMapping.toValue)
  | value v => v

end GivenActions

namespace RuleMapping

def required (members : Members) (name : String) : Except ShapeFault Value :=
  (members.value? name).elim (throw (.missing name)) pure

def ofMembers (members : Members) : Except ShapeFault RuleMapping := do
  let id ← required members "id"
  let name ← required members "name"
  return {
    id := id
    name := name
    enabled := (members.value? "enabled").getD (.bool true)
    conditions := members.get "conditions"
    actions := .value (members.get "actions")
    createdAt := members.get "createdAt"
    updatedAt := members.get "updatedAt" }

def toValue (m : RuleMapping) : Value :=
  .map [("id", m.id), ("name", m.name), ("enabled", m.enabled), ("conditions", m.conditions),
    ("actions", m.actions.toValue), ("createdAt", m.createdAt), ("updatedAt", m.updatedAt)]

end RuleMapping

namespace Rule

def holds (context : Members) (r : Rule) : Bool :=
  !r.enabled.isFalsy && Condition.allHold context r.conditions

def execute (context : Members) (r : Rule) : List Outcome :=
  if r.holds context then r.actions.map Action.execute else []

def toMapping (r : Rule) : RuleMapping where
  id := r.id
  name := r.name
  enabled := r.enabled
  conditions := .list (Condition.listToValue r.conditions)
  actions := .mappings (r.actions.map Action.toMapping)
  createdAt := .text (Iso.text r.createdAt)
  updatedAt := .text (Iso.text r.updatedAt)

def toValue (r : Rule) : Value := r.toMapping.toValue

def timeOf (v : Value) (default : Timestamp) : Except ShapeFault Timestamp :=
  if v.isFalsy then return default
  else
    match v with
    | .text t => (Iso.readText? t).elim (throw .timeMalformed) pure
    | _ => throw .timeNotText

def ofMapping (m : RuleMapping) : Except ShapeFault (Timestamp → Timestamp → Rule) := do
  let conditions ← Condition.listOf m.conditions
  let actions ← m.actions.read
  return fun createdAt updatedAt =>
    ⟨m.id, m.name, m.enabled, conditions, actions, createdAt, updatedAt⟩

/-- The rule of a mapping. The given times stand in for the ones it does not have. -/
def timed (m : RuleMapping) (rule : Timestamp → Timestamp → Rule) (created updated : Timestamp) :
    Except ShapeFault Rule := do
  let createdAt ← timeOf m.createdAt created
  let updatedAt ← timeOf m.updatedAt updated
  return rule createdAt updatedAt

/-- The rule of a mapping. Once all but its times is read, the clock is read twice, whether or not
the mapping has times of its own. -/
def readMapping (source : Source) (m : RuleMapping) (s : Supply) :
    Except ShapeFault Rule × Supply :=
  match ofMapping m with
  | .ok rule =>
    let (created, s) := s.readClock source
    let (updated, s) := s.readClock source
    (timed m rule created updated, s)
  | .error fault => (.error fault, s)

def read (source : Source) (v : Value) (s : Supply) : Except ShapeFault Rule × Supply :=
  match v with
  | .map members =>
    match RuleMapping.ofMembers members with
    | .ok m => readMapping source m s
    | .error fault => (.error fault, s)
  | _ => (.error .ruleNotMapping, s)

end Rule

end Referral
