import Referral.Proofs.Rule.Depth

namespace Referral.Authoring

open Schema (Step)

variable {α β : Type}

/-- What comes of a step that meets the faults in turn: the first of them, or something as
described if there are none. -/
inductive FirstOf (p : α → Prop) : List AuthoringFault → Except AuthoringFault α → Prop
  | done {a : α} (described : p a) : FirstOf p [] (.ok a)
  | refused (f : AuthoringFault) (rest : List AuthoringFault) : FirstOf p (f :: rest) (.error f)

def Reports (m : AuthoringM α) (faults : List AuthoringFault) (p : α → Prop) : Prop :=
  ∀ s, FirstOf p faults (m s).1

variable {p : α → Prop} {q : β → Prop} {path : List Step} {reason : AuthoringReason}
  {first rest : List AuthoringFault}

theorem reports_pure {a : α} (h : p a) : Reports (pure a) [] p := fun _ => .done h

theorem reports_refuse (path : List Step) (reason : AuthoringReason) (rest : List AuthoringFault)
    (p : α → Prop) : Reports (refuse path reason) (⟨path, reason⟩ :: rest) p :=
  fun _ => .refused _ rest

theorem Reports.guard {broken sound : Bool} (hbroken : broken = !sound) {m : AuthoringM α}
    (h : Reports m rest p) :
    Reports (if broken then refuse path reason else m) (check sound path reason ++ rest) p := by
  subst hbroken
  cases sound with
  | false => exact reports_refuse path reason rest p
  | true => exact h

theorem Reports.unless {broken sound : Bool} (hbroken : broken = !sound) {m m' : AuthoringM α}
    (h : Reports m rest p) :
    Reports (if broken then (refuse path reason : AuthoringM PUnit) >>= fun _ => m' else m)
      (check sound path reason ++ rest) p := by
  have hrefused :
      ((refuse path reason : AuthoringM PUnit) >>= fun _ => m') = refuse path reason := rfl
  rw [hrefused]
  exact h.guard hbroken

theorem Reports.bind {m : AuthoringM α} {f : α → AuthoringM β} (hm : Reports m first p)
    (hf : ∀ a, p a → Reports (f a) rest q) : Reports (m >>= f) (first ++ rest) q := by
  intro s
  have hms := hm s
  change FirstOf q (first ++ rest) (ExceptT.bindCont f (m s).1 (m s).2).1
  generalize (m s).2 = t, (m s).1 = result at hms ⊢
  cases hms with
  | done described => exact hf _ described t
  | refused fault more => exact .refused fault (more ++ rest)

theorem Reports.next {m : AuthoringM α} {f : α → AuthoringM β} (hm : Reports m [] p)
    (hf : ∀ a, p a → Reports (f a) rest q) : Reports (m >>= f) rest q := hm.bind hf

theorem Reports.map {m : AuthoringM α} (hm : Reports m first p) {f : α → β}
    (hf : ∀ a, p a → q (f a)) : Reports (m >>= fun a => pure (f a)) first q := by
  have hbind := hm.bind fun a ha => reports_pure (hf a ha)
  rwa [List.append_nil] at hbind

theorem reports_identifier (source : Source) (given : Option String) (kind : String) :
    Reports (identifier source given kind) [] fun _ => True := by
  rw [identifier]
  split
  · exact reports_pure trivial
  · exact fun s => .done trivial

mutual

theorem reports_condition (source : Source) (path : List Step) : ∀ r : ConditionRequest,
    Reports (condition source path r) (r.faults path) fun c => c.copySteps = r.copySteps
  | ⟨id, kind, field, operatorName, operand, children⟩ => by
      rw [condition, ConditionRequest.faults, ConditionRequest.ownFaults,
        ConditionRequest.copySteps]
      split
      next hunknown =>
        have hoperator :
            ConditionRequest.operator? ⟨id, kind, field, operatorName, operand, children⟩ = none :=
          hunknown
        rw [hoperator]
        exact reports_refuse _ _ _ _
      next operator hknown =>
        have hoperator :
            ConditionRequest.operator? ⟨id, kind, field, operatorName, operand, children⟩ =
              some operator := hknown
        have hgroup : ConditionRequest.isGroup ⟨id, kind, field, operatorName, operand, children⟩ =
            operator.isLogical := by
          rw [ConditionRequest.isGroup, hoperator]
          rfl
        obtain ⟨name, rfl, hname⟩ := Option.bind_eq_some_iff.1 hknown
        simp only [hoperator, hgroup, List.append_assoc]
        refine .guard rfl (.next (reports_identifier source id "cond") fun id' _ => ?_)
        split
        · refine .guard (Bool.not_not _).symm ((reports_conditions source _ 0 children).map ?_)
          exact fun cs hcs => (Condition.copySteps_group hname cs _ _ _).trans (by rw [hcs])
        · rw [List.append_nil]
          split
          next hempty =>
            rw [hempty]
            exact reports_refuse _ _ _ _
          next field' hfield =>
            rw [hfield]
            split
            · exact reports_pure (Condition.copySteps_leaf hname _ _ _ rfl)
            · split
              next hlong =>
                rw [hlong]
                exact reports_refuse _ _ _ _
              next t hloose =>
                rw [hloose]
                exact reports_pure (Condition.copySteps_leaf hname _ _ _ rfl)

theorem reports_conditions (source : Source) (path : List Step) (i : Nat) :
    ∀ rs : List ConditionRequest,
      Reports (conditions source path i rs) (ConditionRequest.listFaults path i rs) fun cs =>
        Condition.listCopySteps cs = ConditionRequest.listCopySteps rs
  | [] => by
      rw [conditions]
      exact reports_pure rfl
  | r :: rs => by
      rw [conditions, ConditionRequest.listFaults]
      refine (reports_condition source _ r).bind fun c hc =>
        (reports_conditions source path (i + 1) rs).map fun cs hcs => ?_
      rw [Condition.listCopySteps, ConditionRequest.listCopySteps, hc, hcs]

end

theorem reports_reward {params : Members} {path : List Step} {m : AuthoringM α}
    (hm : Reports m [] p) :
    Reports
      (match rewardFault? params with
        | some (name, reason) => refuse (path ++ [.key "params", .key name]) reason
        | none => m)
      (ActionRequest.rewardFaults (path ++ [.key "params"]) params) p := by
  have hpath (name : String) : path ++ [.key "params"] ++ [.key name] =
      path ++ [.key "params", .key name] := List.append_assoc _ _ _
  rw [rewardFault?, ActionRequest.rewardFaults, hpath, hpath, hpath]
  cases amountFault? (params.get "amount") with
  | some reason => exact reports_refuse _ _ _ _
  | none =>
      cases textFault? params "currency" with
      | some reason => exact reports_refuse _ _ _ _
      | none =>
          cases textFault? params "description" with
          | some reason => exact reports_refuse _ _ _ _
          | none => exact hm

theorem reports_action (source : Source) (path : List Step) (r : ActionRequest) :
    Reports (action source path r) (r.faults path) fun a => a.copySteps = r.copySteps := by
  rw [action, ActionRequest.faults]
  split
  next hkind =>
    rw [hkind]
    exact reports_refuse _ _ _ _
  next kind hkind =>
    have hgiven : Reports
        (do
          let id ← identifier source r.id "action"
          return (⟨.ofValue (.text kind), .ofMembers r.params, .text id⟩ : Action))
        [] fun a => a.copySteps = r.copySteps :=
      (reports_identifier source r.id "action").map fun id _ =>
        Action.copySteps_ofMembers kind id r.params
    rw [hkind]
    refine .guard rfl ?_
    by_cases hreward : kind = "reward"
    · rw [if_pos hreward, if_pos (congrArg some hreward)]
      exact reports_reward hgiven
    · rw [if_neg hreward, if_neg fun heq => hreward (Option.some.inj heq)]
      exact hgiven

theorem reports_actions (source : Source) (i : Nat) (rs : List ActionRequest) :
    Reports (actions source i rs) (ActionRequest.listFaults [.key "actions"] i rs) fun as =>
      as.map Action.copySteps = rs.map ActionRequest.copySteps := by
  induction rs generalizing i with
  | nil => exact reports_pure rfl
  | cons r rs ih =>
      refine (reports_action source _ r).bind fun a ha => (ih (i + 1)).map fun as has => ?_
      rw [List.map_cons, List.map_cons, ha, has]

theorem reports_rule (source : Source) (r : RuleRequest) :
    Reports (Authoring.rule source r) r.faults fun rule =>
      rule.copySteps = r.copySteps ∧ ∃ t, rule.id = .text t := by
  have htaken {α : Type} (step : Supply → α × Supply) :
      Reports (fun s => (.ok (step s).1, (step s).2)) [] fun _ : α => True := fun s => .done trivial
  rw [Authoring.rule, RuleRequest.faults]
  simp only [List.append_assoc]
  refine .unless (Bool.not_not _).symm (.unless (Bool.not_not _).symm
    (.unless (Bool.not_not _).symm ?_))
  refine (htaken _).next fun now _ => (htaken _).next fun id _ => ?_
  exact (reports_conditions source _ 0 r.conditions).bind fun cs hcs =>
    (reports_actions source 0 r.actions).map fun as has =>
      ⟨RuleRequest.copySteps_eq hcs has _ _ _ _ _, id, rfl⟩

end Referral.Authoring
