import Referral.Ledger.Entry

namespace Referral

structure ConditionRequest where
  id : Option String
  kind : Option String
  field : Option String
  operator : Option String
  operand : Value
  children : List ConditionRequest
  deriving Inhabited

structure ActionRequest where
  id : Option String
  kind : Option String
  params : Members

structure RuleRequest where
  name : Option String
  conditions : List ConditionRequest
  actions : List ActionRequest
  enabled : Bool

structure EvaluationRequest where
  context : Members
  userId : Option String
  reference : Option String

namespace ConditionRequest

open Schema

mutual

/-- The request of a document that lies inside so many of its kind. -/
def ofValueWithin (outer : Nat) : Value → Checked ConditionRequest
  | .map ms =>
    (((((Checked.app (.ok ConditionRequest.mk) (optional ms "id" none textOrNull)).app
      (optional ms "type" none textOrNull)).app
      (optional ms "field" none textOrNull)).app
      (optional ms "operator" none textOrNull)).app
      (optional ms "value" .null any)).app
      (childrenOf (outer + 1) ms)
  | _ => .fail (.notDocument "ConditionPayload")

def childrenOf (outer : Nat) : List (Text × Value) → Checked (List ConditionRequest)
  | [] => .ok []
  | (key, v) :: rest =>
    if key = "children" then (listOf outer v).within (.key "children") else childrenOf outer rest

def listOf (outer : Nat) : Value → Checked (List ConditionRequest)
  | .list elems => ofList outer 0 elems
  | _ => .fail .notList

def ofList (outer i : Nat) : List Value → Checked (List ConditionRequest)
  | [] => .ok []
  | v :: vs =>
    let c := if depthLimit ≤ outer + 1 then .fail .endless else ofValueWithin outer v
    (Checked.app (.ok List.cons) (c.within (.index i))).app (ofList outer (i + 1) vs)

end

def ofValue : Value → Checked ConditionRequest := ofValueWithin 0

mutual

def fits (outer : Nat) : ConditionRequest → Bool
  | ⟨_, _, _, _, operand, children⟩ =>
    outer + 1 < depthLimit && Schema.fits (outer + 1) operand && allFit (outer + 1) children

def allFit (outer : Nat) : List ConditionRequest → Bool
  | [] => true
  | c :: cs => fits outer c && allFit outer cs

end

mutual

def toValue : ConditionRequest → Value
  | ⟨id, kind, field, operator, operand, children⟩ =>
    .map [("id", .ofOption id), ("type", .ofOption kind), ("field", .ofOption field),
      ("operator", .ofOption operator), ("value", operand.numbersOnly),
      ("children", .list (listToValue children))]

def listToValue : List ConditionRequest → List Value
  | [] => []
  | c :: cs => toValue c :: listToValue cs

end

end ConditionRequest

namespace ActionRequest

open Schema in
def ofValue (v : Value) : Checked ActionRequest := do
  let ms ← document "ActionPayload" v
  ((Checked.app (.ok ActionRequest.mk) (optional ms "id" none textOrNull)).app
    (optional ms "type" none textOrNull)).app
    (optional ms "params" [] mapping)

def fits (a : ActionRequest) : Bool := Schema.membersFit 0 a.params

def toValue (a : ActionRequest) : Value :=
  .map [("id", .ofOption a.id), ("type", .ofOption a.kind),
    ("params", (Value.map a.params).numbersOnly)]

end ActionRequest

namespace RuleRequest

open Schema in
def ofValue (v : Value) : Checked RuleRequest := do
  let ms ← document "CreateRuleRequest" v
  (((Checked.app (.ok RuleRequest.mk) (optional ms "name" none textOrNull)).app
    (optional ms "conditions" [] (ConditionRequest.listOf 0))).app
    (optional ms "actions" [] (listOf ActionRequest.ofValue))).app
    (optional ms "enabled" true bool)

def fits (r : RuleRequest) : Bool :=
  ConditionRequest.allFit 0 r.conditions && r.actions.all ActionRequest.fits

def toValue (r : RuleRequest) : Value :=
  .map [("name", .ofOption r.name),
    ("conditions", .list (ConditionRequest.listToValue r.conditions)),
    ("actions", .list (r.actions.map ActionRequest.toValue)), ("enabled", .bool r.enabled)]

end RuleRequest

namespace EvaluationRequest

open Schema in
def ofValue (v : Value) : Checked EvaluationRequest := do
  let ms ← document "EvaluateRulesRequest" v
  ((Checked.app (.ok EvaluationRequest.mk) (optional ms "context" [] mapping)).app
    (optional ms "user_id" none textOrNull)).app
    (optional ms "reference_id" none textOrNull)

def fits (r : EvaluationRequest) : Bool := Schema.membersFit 0 r.context

def toValue (r : EvaluationRequest) : Value :=
  .map [("context", (Value.map r.context).numbersOnly), ("userId", .ofOption r.userId),
    ("referenceId", .ofOption r.reference)]

end EvaluationRequest

end Referral
