import Mathlib.Data.List.Forall2
import Referral.Proofs.Rule.Mapping
import Referral.Proofs.Rule.Supply

namespace Referral

/-- An operand as it is stored: its loose text, unless it is null or has none. -/
def Value.asOperand : Value → Value
  | null => null
  | v => v.loose?.elim v text

theorem loose?_text (t : Text) : (Value.text t).loose? = some t := rfl

theorem Operator.holds?_text {v : Value} {t : Text} (h : v.loose? = some t) (op : Operator)
    (field : Value) : op.holds? field (.text t) = op.holds? field v := by
  have hdouble : (Value.text t).looseDouble? = v.looseDouble? := by
    rw [Value.looseDouble?, Value.looseDouble?, h, loose?_text]
  cases op <;> simp only [holds?, loose?_text, h, hdouble]

theorem Operator.holds?_asOperand (op : Operator) (field operand : Value) :
    op.holds? field operand.asOperand = op.holds? field operand := by
  by_cases hnull : operand = .null
  · rw [hnull]
    rfl
  rw [Value.asOperand]
  · cases h : operand.loose? with
    | none => rfl
    | some t => exact op.holds?_text h field
  · exact hnull

namespace Condition

def Equivalent (c d : Condition) : Prop := ∀ context, c.holds context = d.holds context

theorem equivalent_leaf {v : Value} {t : Text} (h : v.loose? = some t) (field : Value)
    (operator : Operator) (id kind id' kind' : Value) :
    Equivalent (leaf field operator (.text t) id kind) (leaf field operator v id' kind') := by
  intro context
  simp only [holds, leafHolds, operator.holds?_text h]

theorem allHold_congr {cs ds : List Condition} (h : List.Forall₂ Equivalent cs ds)
    (context : Members) : allHold context cs = allHold context ds := by
  induction h with
  | nil => rfl
  | cons hc _ ih => rw [allHold, allHold, hc context, ih]

theorem anyHolds_congr {cs ds : List Condition} (h : List.Forall₂ Equivalent cs ds)
    (context : Members) : anyHolds context cs = anyHolds context ds := by
  induction h with
  | nil => rfl
  | cons hc _ ih => rw [anyHolds, anyHolds, hc context, ih]

theorem equivalent_group {cs ds : List Condition} (h : List.Forall₂ Equivalent cs ds)
    (operator : Operator) (id kind field id' kind' field' : Value) :
    Equivalent (group operator cs id kind field) (group operator ds id' kind' field') := by
  intro context
  cases operator <;> simp only [holds, allHold_congr h, anyHolds_congr h]

mutual

/-- The condition with every operand as it is stored. -/
def withTexts : Condition → Condition
  | leaf field operator operand id kind => leaf field operator operand.asOperand id kind
  | group operator children id kind field => group operator (listWithTexts children) id kind field

def listWithTexts : List Condition → List Condition
  | [] => []
  | c :: cs => withTexts c :: listWithTexts cs

end

mutual

theorem equivalent_withTexts : ∀ c : Condition, Equivalent c.withTexts c
  | leaf field operator operand id kind => by
      intro context
      simp only [withTexts, holds, leafHolds, operator.holds?_asOperand]
  | group operator children id kind field => by
      rw [withTexts]
      exact equivalent_group (equivalent_listWithTexts children) operator id kind field id kind
        field

theorem equivalent_listWithTexts : ∀ cs : List Condition,
    List.Forall₂ Equivalent (listWithTexts cs) cs
  | [] => .nil
  | c :: cs => .cons (equivalent_withTexts c) (equivalent_listWithTexts cs)

end

end Condition

namespace ConditionRequest

mutual

def wire : ConditionRequest → Value
  | ⟨id, kind, field, operator, operand, children⟩ =>
    .map [("id", .ofOption id), ("type", .ofOption kind), ("field", .ofOption field),
      ("operator", .ofOption operator), ("value", operand), ("children", .list (wires children))]

def wires : List ConditionRequest → List Value
  | [] => []
  | r :: rs => wire r :: wires rs

end

end ConditionRequest

def ActionRequest.wire (r : ActionRequest) : Value :=
  .map [("id", .ofOption r.id), ("type", .ofOption r.kind), ("params", .map r.params)]

namespace Authoring

open Schema (Step)

variable {α β : Type}

theorem exists_of_bind {m : AuthoringM α} {f : α → AuthoringM β} {s s' : Supply} {b : β}
    (h : (m >>= f) s = (.ok b, s')) : ∃ a t, m s = (.ok a, t) ∧ f a t = (.ok b, s') := by
  change ExceptT.bindCont f (m s).1 (m s).2 = (.ok b, s') at h
  rcases hended : m s with ⟨fault | a, t⟩
  · rw [hended] at h
    cases h
  · rw [hended] at h
    exact ⟨a, t, rfl, h⟩

/-- What the step gives, unless it ends in a fault, is as described. -/
def Gives (m : AuthoringM α) (p : α → Prop) : Prop := ∀ s a s', m s = (.ok a, s') → p a

theorem gives_pure {p : α → Prop} {a : α} (h : p a) : Gives (pure a) p := by
  intro s b s' hb
  cases hb
  exact h

theorem gives_refuse (path : List Step) (reason : AuthoringReason) (p : α → Prop) :
    Gives (refuse path reason) p := by
  intro s a s' h
  cases h

theorem Gives.bind {m : AuthoringM α} {f : α → AuthoringM β} {p : α → Prop} {q : β → Prop}
    (hm : Gives m p) (hf : ∀ a, p a → Gives (f a) q) : Gives (m >>= f) q := by
  intro s b s' h
  obtain ⟨a, t, ha, hb⟩ := exists_of_bind h
  exact hf a (hm s a t ha) t b s' hb

theorem gives_any (m : AuthoringM α) : Gives m fun _ => True := fun _ _ _ _ => trivial

theorem eq_some_of_filled? {given : Option String} {text : String} (h : filled? given = some text) :
    given = some text := (Option.filter_eq_some_iff.1 h).1

mutual

theorem gives_condition (source : Source) (path : List Step) : ∀ r : ConditionRequest,
    Gives (condition source path r) fun c =>
      ∃ d, Condition.ofValue r.wire = .ok d ∧ Condition.Equivalent c d
  | ⟨id, kind, field, operatorName, operand, children⟩ => by
      rw [condition]
      split
      · exact gives_refuse _ _ _
      next operator hoperator =>
        obtain ⟨name, rfl, hname⟩ := Option.bind_eq_some_iff.1 hoperator
        have hread : Operator.ofValue (.ofOption (some name)) = operator := by
          simp [Value.ofOption, Operator.ofValue, Text.string?, hname]
        rw [ConditionRequest.wire, Condition.ofValue_members, hread]
        dsimp only
        split
        · exact gives_refuse _ _ _
        refine (gives_any _).bind fun id' _ => ?_
        split
        · split
          · exact gives_refuse _ _ _
          refine (gives_conditions source _ 0 children).bind fun cs hcs => gives_pure ?_
          obtain ⟨ds, hds, hequivalent⟩ := hcs
          rw [hds]
          exact ⟨_, rfl, Condition.equivalent_group hequivalent operator _ _ _ _ _ _⟩
        · split
          · exact gives_refuse _ _ _
          next text hfield =>
            obtain rfl := eq_some_of_filled? hfield
            split
            · exact gives_pure ⟨_, rfl, fun context => rfl⟩
            · split
              · exact gives_refuse _ _ _
              next t hloose =>
                exact gives_pure ⟨_, rfl, Condition.equivalent_leaf hloose _ operator _ _ _ _⟩

theorem gives_conditions (source : Source) (path : List Step) (i : Nat) :
    ∀ rs : List ConditionRequest, Gives (conditions source path i rs) fun cs =>
      ∃ ds, Condition.ofList (ConditionRequest.wires rs) = .ok ds ∧
        List.Forall₂ Condition.Equivalent cs ds
  | [] => by
      rw [conditions]
      exact gives_pure ⟨[], rfl, .nil⟩
  | r :: rs => by
      rw [conditions]
      refine (gives_condition source _ r).bind fun c hc => ?_
      refine (gives_conditions source path (i + 1) rs).bind fun cs hcs => gives_pure ?_
      obtain ⟨d, hd, hfirst⟩ := hc
      obtain ⟨ds, hds, hrest⟩ := hcs
      refine ⟨d :: ds, ?_, .cons hfirst hrest⟩
      rw [ConditionRequest.wires, Condition.ofList, hd, hds]
      rfl

end

/-- The action keeps what was requested, and its parameters were checked if it is a reward. -/
structure KeepsAction (r : ActionRequest) (a : Action) : Prop where
  kind : ∃ kind, r.kind = some kind ∧ a.kind = .ofValue (.text kind)
  params : a.params = .ofMembers r.params
  checked : r.kind = some "reward" → rewardFault? r.params = none

theorem gives_action (source : Source) (path : List Step) (r : ActionRequest) :
    Gives (action source path r) (KeepsAction r) := by
  rw [action]
  split
  · exact gives_refuse _ _ _
  next kind hkind =>
    split
    · exact gives_refuse _ _ _
    split
    · exact gives_refuse _ _ _
    next hchecked =>
      refine (gives_any _).bind fun id _ => gives_pure ⟨⟨kind, hkind, rfl⟩, rfl, fun hreward => ?_⟩
      rw [hkind] at hreward
      rwa [if_pos (Option.some.inj hreward)] at hchecked

theorem gives_actions (source : Source) (i : Nat) (rs : List ActionRequest) :
    Gives (actions source i rs) (List.Forall₂ KeepsAction rs) := by
  induction rs generalizing i with
  | nil => exact gives_pure .nil
  | cons r rs ih =>
      exact (gives_action source _ r).bind fun a ha =>
        (ih (i + 1)).bind fun as has => gives_pure (.cons ha has)

structure KeepsRule (r : RuleRequest) (rule : Rule) : Prop where
  enabled : rule.enabled = .bool r.enabled
  conditions : ∃ ds, Condition.ofList (ConditionRequest.wires r.conditions) = .ok ds ∧
    List.Forall₂ Condition.Equivalent rule.conditions ds
  actions : List.Forall₂ KeepsAction r.actions rule.actions
  actions_ne_nil : r.actions ≠ []

theorem keepsRule_of_rule {source : Source} {r : RuleRequest} {s s' : Supply} {rule : Rule}
    (h : Authoring.rule source r s = (.ok rule, s')) :
    KeepsRule r rule ∧ rule.id = .text (source.id "rule" (s.ids + 1)) ∧ s.ids < s'.ids := by
  rw [Authoring.rule] at h
  dsimp only at h
  split at h
  · cases h
  split at h
  · cases h
  split at h
  · cases h
  next hactions =>
    obtain ⟨now, t, hnow, h⟩ := exists_of_bind h
    cases hnow
    obtain ⟨id, t, hid, h⟩ := exists_of_bind h
    cases hid
    obtain ⟨cs, t, hcs, h⟩ := exists_of_bind h
    obtain ⟨as, t', has, h⟩ := exists_of_bind h
    cases h
    have hconditions := takes_conditions source [.key "conditions"] 0 r.conditions
      ((s.readClock source).2.takeId source "rule").2
    rw [hcs] at hconditions
    have hrest := takes_actions source 0 r.actions t
    rw [has] at hrest
    refine ⟨⟨rfl, gives_conditions source _ 0 _ _ _ _ hcs, gives_actions source 0 _ _ _ _ has, ?_⟩,
      rfl, ?_⟩
    · intro hnil
      simp [hnil] at hactions
    · exact Nat.lt_of_lt_of_le (Nat.lt_of_lt_of_le (Nat.lt_succ_self _) hconditions) hrest

theorem KeepsAction.exists_read {r : ActionRequest} {a : Action} (h : KeepsAction r a) :
    ∃ b, Action.ofValue r.wire = .ok b ∧ a.execute = b.execute := by
  obtain ⟨kind, hkind, hread⟩ := h.kind
  have hmapping : ActionMapping.ofMembers [("id", .ofOption r.id), ("type", .text kind),
      ("params", .map r.params)] = ⟨.ofOption r.id, .text kind, .value (.map r.params)⟩ := by
    simp [ActionMapping.ofMembers, Members.get_cons]
  have hparams : paramsOf (.map r.params) = .ok (.ofMembers r.params) := by
    rw [paramsOf]
    cases r.params <;> rfl
  refine ⟨⟨.ofValue (.text kind), .ofMembers r.params, .ofOption r.id⟩, ?_, ?_⟩
  · rw [ActionRequest.wire, hkind, Action.ofValue]
    change Action.ofMapping (.ofMembers [("id", .ofOption r.id), ("type", .text kind),
      ("params", .map r.params)]) = _
    rw [hmapping, Action.ofMapping]
    simp only [GivenParams.read, hparams]
    rfl
  · rw [Action.execute, Action.execute, hread, h.params]

theorem exists_read_of_forall₂ {rs : List ActionRequest} {as : List Action}
    (h : List.Forall₂ KeepsAction rs as) :
    ∃ bs, rs.mapM (fun r => Action.ofValue r.wire) = .ok bs ∧
      as.map Action.execute = bs.map Action.execute := by
  induction h with
  | nil => exact ⟨[], rfl, rfl⟩
  | cons hfirst _ ih =>
      obtain ⟨b, hb, hexecute⟩ := hfirst.exists_read
      obtain ⟨bs, hbs, hrest⟩ := ih
      refine ⟨b :: bs, ?_, ?_⟩
      · rw [List.mapM_cons, hb, hbs]
        rfl
      · rw [List.map_cons, List.map_cons, hexecute, hrest]

theorem KeepsRule.exists_read {r : RuleRequest} {rule : Rule} (h : KeepsRule r rule) :
    ∃ ds bs, Condition.ofList (ConditionRequest.wires r.conditions) = .ok ds ∧
      r.actions.mapM (fun a => Action.ofValue a.wire) = .ok bs ∧ bs ≠ [] ∧
      (∀ context, rule.holds context = (r.enabled && Condition.allHold context ds)) ∧
      rule.actions.map Action.execute = bs.map Action.execute := by
  obtain ⟨ds, hds, hequivalent⟩ := h.conditions
  obtain ⟨bs, hbs, hexecute⟩ := exists_read_of_forall₂ h.actions
  refine ⟨ds, bs, hds, hbs, ?_, fun context => ?_, hexecute⟩
  · rintro rfl
    have hlength := h.actions.length_eq
    rw [List.map_nil, List.map_eq_nil_iff] at hexecute
    rw [hexecute, List.length_nil, List.length_eq_zero_iff] at hlength
    exact h.actions_ne_nil hlength
  · rw [Rule.holds, h.enabled, Condition.allHold_congr hequivalent, Value.isFalsy, Bool.not_not]

end Authoring

theorem RuleService.exists_of_create {source : Source} {request : RuleRequest} {s s' : RuleState}
    {r : Rule} (h : create source request s = (.ok r, s')) :
    ∃ supply store, Authoring.rule source request s.supply = (.ok r, supply) ∧
      s.store.insert r = .ok store ∧ s' = ⟨store, supply⟩ := by
  rw [create_eq] at h
  rcases hrule : Authoring.rule source request s.supply with ⟨fault | r', supply⟩
  · rw [hrule] at h
    cases h
  rw [hrule] at h
  dsimp only at h
  cases hstored : s.store.insert r' with
  | error fault =>
      rw [hstored] at h
      cases h
  | ok store =>
      rw [hstored] at h
      cases h
      exact ⟨supply, store, rfl, hstored, rfl⟩

end Referral
