import Referral.Rule.Service

namespace Referral

namespace Authoring

open Schema (Step)

variable {α β : Type}

/-- The step gives no identifier back. -/
def Takes (m : AuthoringM α) : Prop := ∀ s : Supply, s.ids ≤ (m s).2.ids

theorem takes_pure (a : α) : Takes (pure a) := fun _ => Nat.le_refl _

theorem takes_refuse (path : List Step) (reason : AuthoringReason) :
    Takes (refuse path reason : AuthoringM α) := fun _ => Nat.le_refl _

theorem takes_refuse_bind (path : List Step) (reason : AuthoringReason) (f : α → AuthoringM β) :
    Takes (refuse path reason >>= f) := fun _ => Nat.le_refl _

theorem Takes.bind {m : AuthoringM α} {f : α → AuthoringM β} (hm : Takes m)
    (hf : ∀ a, Takes (f a)) : Takes (m >>= f) := by
  intro s
  have hfirst := hm s
  change s.ids ≤ (ExceptT.bindCont f (m s).1 (m s).2).2.ids
  generalize m s = ended at hfirst ⊢
  rcases ended with ⟨fault | a, t⟩
  · exact hfirst
  · exact Nat.le_trans hfirst (hf a t)

theorem takes_identifier (source : Source) (given : Option String) (kind : String) :
    Takes (identifier source given kind) := by
  rw [identifier]
  split
  · exact takes_pure _
  · exact fun _ => Nat.le_succ _

mutual

theorem takes_condition (source : Source) (path : List Step) :
    ∀ r : ConditionRequest, Takes (condition source path r)
  | ⟨id, kind, field, operatorName, operand, children⟩ => by
      rw [condition]
      split
      · exact takes_refuse _ _
      next operator =>
        dsimp only
        split
        · exact takes_refuse _ _
        refine (takes_identifier source id "cond").bind fun id => ?_
        split
        · split
          · exact takes_refuse _ _
          · exact (takes_conditions source _ 0 children).bind fun cs => takes_pure _
        · split
          · exact takes_refuse _ _
          · split
            · exact takes_pure _
            · split
              · exact takes_refuse _ _
              · exact takes_pure _

theorem takes_conditions (source : Source) (path : List Step) (i : Nat) :
    ∀ rs : List ConditionRequest, Takes (conditions source path i rs)
  | [] => by
      rw [conditions]
      exact takes_pure _
  | r :: rs => by
      rw [conditions]
      exact (takes_condition source _ r).bind fun c =>
        (takes_conditions source path (i + 1) rs).bind fun cs => takes_pure _

end

theorem takes_action (source : Source) (path : List Step) (r : ActionRequest) :
    Takes (action source path r) := by
  rw [action]
  split
  · exact takes_refuse _ _
  · split
    · exact takes_refuse _ _
    · split
      · exact takes_refuse _ _
      · exact (takes_identifier source r.id "action").bind fun id => takes_pure _

theorem takes_actions (source : Source) (i : Nat) (rs : List ActionRequest) :
    Takes (actions source i rs) := by
  induction rs generalizing i with
  | nil => exact takes_pure []
  | cons r rs ih =>
      exact (takes_action source _ r).bind fun a => (ih (i + 1)).bind fun as => takes_pure _

theorem takes_rule (source : Source) (r : RuleRequest) : Takes (rule source r) := by
  rw [rule]
  dsimp only
  split
  · exact takes_refuse_bind _ _ _
  split
  · exact takes_refuse_bind _ _ _
  split
  · exact takes_refuse_bind _ _ _
  refine Takes.bind (fun _ => Nat.le_refl _) fun now => ?_
  refine Takes.bind (fun _ => Nat.le_succ _) fun id => ?_
  refine (takes_conditions source _ 0 r.conditions).bind fun cs => ?_
  exact (takes_actions source 0 r.actions).bind fun as => takes_pure _

end Authoring

namespace RuleService

theorem storing_eq (step : RuleM Rule) (room : Nat) (s : RuleState) :
    (do let r ← step; insertWithin r room; return r : RuleM Rule) s =
      match step s with
      | (.error e, t) => (.error e, t)
      | (.ok r, t) =>
        match t.store.insertWithin r room with
        | .ok store => (.ok r, { t with store := store })
        | .error fault => (.error (.shape fault), t) := by
  simp only [bind, ExceptT.bind, ExceptT.mk, StateT.bind, ExceptT.bindCont]
  rcases step s with ⟨e | r, t⟩
  · rfl
  · dsimp only [StateT.bind, RuleService.insertWithin]
    cases t.store.insertWithin r room with
    | ok store => rfl
    | error fault => rfl

theorem create_eq (source : Source) (request : RuleRequest) (s : RuleState) :
    create source request s =
      match Authoring.rule source request s.supply with
      | (.error fault, supply) => (.error (.authoring fault), ⟨s.store, supply⟩)
      | (.ok r, supply) =>
        match s.store.insert r with
        | .ok store => (.ok r, ⟨store, supply⟩)
        | .error fault => (.error (.shape fault), ⟨s.store, supply⟩) := by
  refine (storing_eq _ copyLimit s).trans ?_
  dsimp only [ExceptT.run]
  rcases Authoring.rule source request s.supply with ⟨fault | r, supply⟩ <;> rfl

end RuleService

end Referral
