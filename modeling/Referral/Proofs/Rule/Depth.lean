import Referral.Proofs.Rule.Mapping
import Referral.Proofs.Rule.WellFormed

namespace Referral

namespace ConditionRequest

mutual

/-- The steps of a copy of the condition that a request becomes, six for each level. -/
def copySteps : ConditionRequest → Nat
  | ⟨id, kind, field, operator, operand, children⟩ =>
    if isGroup ⟨id, kind, field, operator, operand, children⟩ then listCopySteps children + 6 else 6

def listCopySteps : List ConditionRequest → Nat
  | [] => 1
  | r :: rs => max (copySteps r) (listCopySteps rs)

end

end ConditionRequest

def ActionRequest.copySteps (r : ActionRequest) : Nat := (Value.map r.params).copySteps + 4

def RuleRequest.copySteps (r : RuleRequest) : Nat :=
  max (ConditionRequest.listCopySteps r.conditions)
    ((r.actions.map ActionRequest.copySteps).foldl max 1) + 6

theorem Value.elemsCopySteps_values (members : Members) :
    elemsCopySteps (members.map Prod.snd) = membersCopySteps members := by
  induction members with
  | nil => rfl
  | cons row members ih => rw [List.map_cons, elemsCopySteps, membersCopySteps, ih]

theorem Value.one_le_membersCopySteps (members : Members) : 1 ≤ membersCopySteps members := by
  induction members with
  | nil => exact Nat.le_refl 1
  | cons row members ih => exact Nat.le_trans ih (Nat.le_max_right _ _)

theorem Condition.one_le_listCopySteps (cs : List Condition) : 1 ≤ listCopySteps cs := by
  induction cs with
  | nil => exact Nat.le_refl 1
  | cons c cs ih => exact Nat.le_trans ih (Nat.le_max_right _ _)

theorem Condition.copySteps_leaf {name : String} {op : Operator}
    (hop : Operator.ofName? name = some op) (field id kind : String) {operand : Value}
    (hoperand : operand.copySteps = 2) :
    (leaf (.text field) op operand (.text id) (.text kind)).copySteps = 6 := by
  simp [copySteps, Value.elemsCopySteps, Value.copySteps, Operator.toValue_of_ofName? hop, hoperand]

theorem Condition.copySteps_group {name : String} {op : Operator}
    (hop : Operator.ofName? name = some op) (cs : List Condition) (id kind : String)
    (field : Option String) :
    (group op cs (.text id) (.text kind) (.ofOption field)).copySteps = listCopySteps cs + 6 := by
  have hfield : (Value.ofOption field).copySteps = 2 := by cases field <;> rfl
  have hcopied := one_le_listCopySteps cs
  simp only [copySteps, Value.elemsCopySteps, Value.copySteps, Operator.toValue_of_ofName? hop,
    hfield]
  omega

theorem ActionKind.toValue_ofValue_text (t : Text) : (ofValue (.text t)).toValue = .text t := by
  by_cases hreward : t = "reward"
  · rw [hreward]
    rfl
  by_cases hnotification : t = "notification"
  · rw [hnotification]
    rfl
  rw [ofValue_eq_other (by simpa using hreward) (by simpa using hnotification), toValue]

theorem Action.copySteps_ofMembers (kind id : Text) (params : Members) :
    (⟨.ofValue (.text kind), .ofMembers params, .text id⟩ : Action).copySteps =
      (Value.map params).copySteps + 4 := by
  have hparams : (Params.ofMembers params).map Prod.snd = params.map Prod.snd := by
    rw [Params.ofMembers, List.map_map]
    rfl
  have hcopied := Value.one_le_membersCopySteps params
  simp only [copySteps, hparams, ActionKind.toValue_ofValue_text, Value.elemsCopySteps_values,
    Value.elemsCopySteps, Value.copySteps]
  omega

theorem RuleRequest.copySteps_eq {r : RuleRequest} {cs : List Condition} {as : List Action}
    (hconditions : Condition.listCopySteps cs = ConditionRequest.listCopySteps r.conditions)
    (hactions : as.map Action.copySteps = r.actions.map ActionRequest.copySteps) (id name : Text)
    (enabled : Bool) (createdAt updatedAt : Timestamp) :
    (⟨.text id, .text name, .bool enabled, cs, as, createdAt, updatedAt⟩ : Rule).copySteps =
      r.copySteps := by
  rw [Rule.copySteps, RuleRequest.copySteps, hconditions, hactions]
  simp only [Value.elemsCopySteps, Value.copySteps]
  omega

end Referral
