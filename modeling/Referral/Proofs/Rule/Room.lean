import Referral.Proofs.Rule.Calls
import Referral.Proofs.Rule.FirstFault

namespace Referral

namespace ConditionRequest

mutual

/-- The calls one inside another that it may take to author the condition: two for each level. -/
def calls : ConditionRequest → Nat
  | ⟨id, kind, field, operator, operand, children⟩ =>
    if isGroup ⟨id, kind, field, operator, operand, children⟩ then listCalls children + 2
    else operand.looseCalls + 1

def listCalls : List ConditionRequest → Nat
  | [] => 0
  | r :: rs => max (calls r) (listCalls rs)

end

end ConditionRequest

def RuleRequest.calls (r : RuleRequest) : Nat := ConditionRequest.listCalls r.conditions + 2

namespace Authoring

open Schema (Step)

variable {α β : Type} {c d : Nat} {x : StackedAuthoring α} {m : AuthoringM α}

theorem run_bind (m : AuthoringM α) (f : α → AuthoringM β) (s : Supply) :
    (m >>= f) s = match m s with
      | (.ok a, t) => f a t
      | (.error fault, t) => (.error fault, t) := by
  simp only [bind, ExceptT.bind, ExceptT.mk, StateT.bind, ExceptT.bindCont]
  rcases m s with ⟨fault | a, t⟩ <;> rfl

theorem bind_ok {room : Nat} {s t : Supply} {a : α} (h : x room s = (.ok a, t))
    (g : α → StackedAuthoring β) : (x >>= g) room s = g a room t := by
  change ExceptT.bindCont (g · room) (x room s).1 (x room s).2 = _
  rw [h]
  rfl

theorem bind_error {room : Nat} {s t : Supply} {e : RuleError} (h : x room s = (.error e, t))
    (g : α → StackedAuthoring β) : (x >>= g) room s = (.error e, t) := by
  change ExceptT.bindCont (g · room) (x room s).1 (x room s).2 = _
  rw [h]
  rfl

/-- With room for so many calls the step goes as the other. With less it may stop for want of room,
and otherwise goes as the other too. -/
def Follows (calls : Nat) (x : StackedAuthoring α) (m : AuthoringM α) : Prop :=
  ∀ room s, x room s = onStack m room s ∨
    room < calls ∧ ∃ s', x room s = (.error (.shape .tooDeep), s')

theorem follows_onStack (m : AuthoringM α) : Follows c (onStack m) m := fun _ _ => .inl rfl

theorem follows_pure (a : α) : Follows c (pure a) (pure a) := fun _ _ => .inl rfl

theorem Follows.mono (h : Follows c x m) (hcd : c ≤ d) : Follows d x m := fun room s =>
  (h room s).imp_right (And.imp_left fun hroom => Nat.lt_of_lt_of_le hroom hcd)

theorem Follows.nest (h : Follows c x m) (calls : Nat) : Follows (c + calls) (nest calls x) m := by
  intro room s
  rw [Authoring.nest, inside]
  by_cases hroom : room < calls
  · rw [if_pos hroom]
    exact .inr ⟨Nat.lt_add_left c hroom, s, rfl⟩
  · rw [if_neg hroom]
    exact (h (room - calls) s).imp_right (And.imp_left fun hless => by omega)

theorem Follows.bind {g : α → StackedAuthoring β} {f : α → AuthoringM β} (h : Follows c x m)
    (hg : ∀ a, Follows d (g a) (f a)) : Follows (max c d) (x >>= g) (m >>= f) := by
  intro room s
  obtain hx | ⟨hroom, s', hx⟩ := h room s
  · rcases hm : m s with ⟨fault | a, t⟩
    · refine .inl ?_
      rw [onStack, hm] at hx
      rw [bind_error hx, onStack, run_bind, hm]
      rfl
    · rw [onStack, hm] at hx
      rw [bind_ok hx, onStack, run_bind, hm]
      exact (hg a room t).imp_right
        (And.imp_left fun hless => Nat.lt_of_lt_of_le hless (Nat.le_max_right c d))
  · exact .inr ⟨Nat.lt_of_lt_of_le hroom (Nat.le_max_left c d), s', bind_error hx g⟩

theorem Follows.next {g : α → StackedAuthoring β} {f : α → AuthoringM β}
    (hg : ∀ a, Follows d (g a) (f a)) : Follows d (onStack m >>= g) (m >>= f) :=
  ((follows_onStack (c := 0) m).bind hg).mono (Nat.max_le.2 ⟨Nat.zero_le d, Nat.le_refl d⟩)

theorem Follows.map (h : Follows c x m) (f : α → β) :
    Follows c (x >>= fun a => pure (f a)) (m >>= fun a => pure (f a)) :=
  (h.bind fun a => follows_pure (c := c) (f a)).mono (Nat.max_le.2 ⟨Nat.le_refl c, Nat.le_refl c⟩)

theorem follows_ite {p : Prop} [Decidable p] {y : StackedAuthoring α} {n : AuthoringM α}
    (hx : Follows c x m) (hy : Follows c y n) :
    Follows c (if p then x else y) (if p then m else n) := by
  split
  · exact hx
  · exact hy

theorem follows_unless {broken : Bool} {fault : AuthoringM PUnit} (h : Follows c x m) :
    Follows c (if broken then onStack fault >>= fun _ => x else x)
      (if broken then fault >>= fun _ => m else m) :=
  follows_ite (.next fun _ => h) h

theorem follows_branch {b : Bool} {y : StackedAuthoring α} {n : AuthoringM α}
    (hx : Follows c x m) (hy : Follows d y n) :
    Follows (if b then c else d) (if b then x else y) (if b then m else n) := by
  cases b with
  | false => exact hy
  | true => exact hx

theorem follows_looseText {v : Value} {g : Option Text → StackedAuthoring α}
    (h : g v.loose? = onStack m) : Follows v.looseCalls (looseTextWithin v >>= g) m := by
  intro room s
  have hread : looseTextWithin v room s =
      ((Stacked.taking v.looseCalls v.loose? room).mapError fun _ => .shape .tooDeep, s) := by
    rw [looseTextWithin, Value.looseWithin_eq]
  rw [Stacked.taking] at hread
  by_cases hroom : room < v.looseCalls
  · rw [if_pos hroom] at hread
    exact .inr ⟨hroom, s, bind_error hread g⟩
  · rw [if_neg hroom] at hread
    exact .inl (by rw [bind_ok hread, h])

theorem one_le_calls (r : ConditionRequest) : 1 ≤ r.calls := by
  obtain ⟨id, kind, field, operator, operand, children⟩ := r
  rw [ConditionRequest.calls]
  split <;> omega

mutual

theorem follows_condition (source : Source) (path : List Step) : ∀ r : ConditionRequest,
    Follows r.calls (conditionWithin source path r) (condition source path r)
  | ⟨id, kind, field, operatorName, operand, children⟩ => by
      rw [conditionWithin, condition]
      cases hoperator : operatorName.bind Operator.ofName? with
      | none => exact ((follows_onStack (c := 0) _).nest 1).mono (one_le_calls _)
      | some operator =>
          have hgroup : ConditionRequest.isGroup
              ⟨id, kind, field, operatorName, operand, children⟩ = operator.isLogical := by
            rw [ConditionRequest.isGroup, ConditionRequest.operator?, hoperator]
            rfl
          rw [ConditionRequest.calls, hgroup]
          have hcalls : (if operator.isLogical then ConditionRequest.listCalls children + 2
                else operand.looseCalls + 1) =
              (if operator.isLogical then ConditionRequest.listCalls children + 1
                else operand.looseCalls) + 1 := by
            split <;> rfl
          rw [hcalls]
          refine Follows.nest ?_ 1
          refine follows_ite (follows_onStack _) (.next fun id' => ?_)
          refine follows_branch (follows_ite (follows_onStack _)
            (((follows_conditions source _ 0 children).nest 1).map _)) ?_
          cases filled? field with
          | none => exact follows_onStack _
          | some name =>
              cases operand with
              | null => exact follows_pure _
              | bool b | int n | double x | text t | list elems | map members =>
                  refine follows_looseText ?_
                  dsimp only
                  cases Value.loose? _ <;> rfl

theorem follows_conditions (source : Source) (path : List Step) (i : Nat) :
    ∀ rs : List ConditionRequest, Follows (ConditionRequest.listCalls rs)
      (conditionsWithin source path i rs) (conditions source path i rs)
  | [] => follows_pure _
  | r :: rs => by
      rw [conditionsWithin, conditions, ConditionRequest.listCalls]
      exact (follows_condition source _ r).bind fun c =>
        (follows_conditions source path (i + 1) rs).map (c :: ·)

end

theorem follows_rule (source : Source) (r : RuleRequest) :
    Follows (r.calls) (ruleWithin source r) (Authoring.rule source r) := by
  rw [ruleWithin, Authoring.rule]
  refine Follows.nest ?_ 1
  refine follows_unless (follows_unless (follows_unless ?_))
  refine .next fun now => .next fun id => ?_
  exact (((follows_conditions source _ 0 r.conditions).nest 1).bind fun cs =>
    (follows_onStack (c := 0) _).map _).mono (Nat.max_le.2 ⟨Nat.le_refl _, Nat.zero_le _⟩)

end Authoring

namespace RuleService

theorem createWithin_eq (source : Source) (request : RuleRequest) (room : Nat) (s : RuleState) :
    createWithin source request room s =
        (match Authoring.rule source request s.supply with
        | (.error fault, supply) => (.error (.authoring fault), ⟨s.store, supply⟩)
        | (.ok r, supply) =>
          match s.store.insertWithin r (room - 2) with
          | .ok store => (.ok r, ⟨store, supply⟩)
          | .error fault => (.error (.shape fault), ⟨s.store, supply⟩)) ∨
      room < request.calls ∧ ∃ supply,
        createWithin source request room s = (.error (.shape .tooDeep), ⟨s.store, supply⟩) := by
  rw [createWithin, storing_eq]
  obtain hrule | ⟨hroom, supply, hrule⟩ := Authoring.follows_rule source request room s.supply
  · rw [hrule, Authoring.onStack]
    rcases Authoring.rule source request s.supply with ⟨fault | r, supply⟩ <;> exact .inl rfl
  · rw [hrule]
    exact .inr ⟨hroom, supply, rfl⟩

end RuleService

end Referral
