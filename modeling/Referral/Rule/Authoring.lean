import Referral.Report
import Referral.Number.Decimal
import Referral.Rule.Basic
import Referral.Rule.Request
import Referral.Supply

namespace Referral

inductive AuthoringReason where
  | missing
  | unknownOperator (given : Option String)
  | unknownKind (given : String)
  | noChildren (operator : String)
  | noField
  | longOperand
  | unknownAction (given : Option String)
  | amountNotNumber
  | amountBelowZero
  | notText (name : String)

structure AuthoringFault where
  path : List Schema.Step
  reason : AuthoringReason

/-- A path as it is written: names joined by dots, indices in brackets. -/
def writtenPath : List Schema.Step → String
  | [] => ""
  | .key name :: rest => name ++ more rest
  | .index i :: rest => "[" ++ decimalText i ++ "]" ++ more rest
where
  more : List Schema.Step → String
    | [] => ""
    | .key name :: rest => "." ++ name ++ more rest
    | .index i :: rest => "[" ++ decimalText i ++ "]" ++ more rest

def AuthoringReason.message : AuthoringReason → String
  | missing => "Missing required fields"
  | unknownOperator given => "Invalid operator: " ++ given.getD "None"
  | unknownKind given => "Invalid condition type: " ++ given
  | noChildren operator => operator ++ " condition requires children"
  | noField => "Condition requires a field"
  | longOperand => "Condition value is too large"
  | unknownAction given => "Invalid action type: " ++ given.getD "None"
  | amountNotNumber => "Reward amount must be a number"
  | amountBelowZero => "Reward amount must be a non-negative number"
  | notText name => "Reward " ++ name ++ " must be a string"

def AuthoringFault.report (f : AuthoringFault) : Report :=
  ⟨.validation, f.reason.message, [("field", .text (writtenPath f.path))]⟩

abbrev AuthoringM := ExceptT AuthoringFault (StateM Supply)

namespace Authoring

open Schema (Step)

def refuse {α : Type} (path : List Step) (reason : AuthoringReason) : AuthoringM α :=
  throw ⟨path, reason⟩

def filled? (text : Option String) : Option String := text.filter (!·.isEmpty)

def identifier (source : Source) (given : Option String) (kind : String) : AuthoringM String :=
  match filled? given with
  | some id => pure id
  | none => fun s =>
    let (id, s) := s.takeId source kind
    (.ok id, s)

def knownKinds : List String := ["user_property", "event_type", "amount", "date", "custom"]

def knownActions : List String := ["reward", "notification", "email", "webhook", "custom"]

mutual

/-- The condition of a request, on a stack with room for its levels. -/
def condition (source : Source) (path : List Step) : ConditionRequest → AuthoringM Condition
  | ⟨id, kind, field, operatorName, operand, children⟩ => do
    match operatorName.bind Operator.ofName? with
    | none => refuse (path ++ [.key "operator"]) (.unknownOperator operatorName)
    | some operator =>
      let kind := (filled? kind).getD "custom"
      if !knownKinds.contains kind then refuse (path ++ [.key "type"]) (.unknownKind kind)
      else
        let id ← identifier source id "cond"
        if operator.isLogical then
          if children.isEmpty then
            refuse (path ++ [.key "children"]) (.noChildren (operatorName.getD ""))
          else
            let cs ← conditions source (path ++ [.key "children"]) 0 children
            return .group operator cs (.text id) (.text kind) (.ofOption field)
        else
          match filled? field with
          | none => refuse (path ++ [.key "field"]) .noField
          | some name =>
            match operand with
            | .null => return .leaf (.text name) operator .null (.text id) (.text kind)
            | v =>
              match v.loose? with
              | none => refuse (path ++ [.key "value"]) .longOperand
              | some t => return .leaf (.text name) operator (.text t) (.text id) (.text kind)

def conditions (source : Source) (path : List Step) (i : Nat) :
    List ConditionRequest → AuthoringM (List Condition)
  | [] => return []
  | r :: rs => do
    let c ← condition source (path ++ [.index i]) r
    let cs ← conditions source path (i + 1) rs
    return c :: cs

end

def numericFault? (v : Value) : Option AuthoringReason :=
  match (v.plain?.bind Text.string?).bind Quantity.read? with
  | none => some .amountNotNumber
  | some (.finite d) => if d.isNegative then some .amountBelowZero else none
  | some _ => some .amountBelowZero

def amountFault? (amount : Value) : Option AuthoringReason :=
  match amount with
  | .null => none
  | .text t => if t.isEmpty then none else numericFault? amount
  | .int _ | .double _ => numericFault? amount
  | _ => some .amountNotNumber

def textFault? (params : Members) (name : String) : Option AuthoringReason :=
  match params.get name with
  | .null | .text _ => none
  | _ => some (.notText name)

def rewardFault? (params : Members) : Option (String × AuthoringReason) :=
  (((amountFault? (params.get "amount")).map ("amount", ·)).or
    ((textFault? params "currency").map ("currency", ·))).or
    ((textFault? params "description").map ("description", ·))

def action (source : Source) (path : List Step) (r : ActionRequest) : AuthoringM Action := do
  match r.kind with
  | none => refuse (path ++ [.key "type"]) (.unknownAction none)
  | some kind =>
    if !knownActions.contains kind then refuse (path ++ [.key "type"]) (.unknownAction (some kind))
    else
      match if kind = "reward" then rewardFault? r.params else none with
      | some (name, reason) => refuse (path ++ [.key "params", .key name]) reason
      | none =>
        let id ← identifier source r.id "action"
        return ⟨.ofValue (.text kind), .ofMembers r.params, .text id⟩

def actions (source : Source) (i : Nat) : List ActionRequest → AuthoringM (List Action)
  | [] => return []
  | r :: rs => do
    let a ← action source [.key "actions", .index i] r
    let as ← actions source (i + 1) rs
    return a :: as

/-- The rule of a request. The first fault ends it, and the identifiers taken until then are not
given back. -/
def rule (source : Source) (r : RuleRequest) : AuthoringM Rule := do
  let name := String.ofList (Text.trimBy Text.isBlank (r.name.getD "").toList)
  if name.isEmpty then refuse [.key "name"] .missing
  if r.conditions.isEmpty then refuse [.key "conditions"] .missing
  if r.actions.isEmpty then refuse [.key "actions"] .missing
  let now ← fun s => (let (t, s) := s.readClock source; (.ok t, s))
  let id ← fun s => (let (id, s) := s.takeId source "rule"; (.ok id, s))
  let cs ← conditions source [.key "conditions"] 0 r.conditions
  let as ← actions source 0 r.actions
  return ⟨.text id, .text name, .bool r.enabled, cs, as, now, now⟩

end Authoring

end Referral
