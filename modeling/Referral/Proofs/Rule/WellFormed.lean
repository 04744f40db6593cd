import Referral.Proofs.Award.Action
import Referral.Proofs.Rule.Authoring

namespace Referral

open Schema (Step)

namespace Authoring

def check (sound : Bool) (path : List Step) (reason : AuthoringReason) : List AuthoringFault :=
  if sound then [] else [⟨path, reason⟩]

theorem check_eq_nil_iff {sound : Bool} {path : List Step} {reason : AuthoringReason} :
    check sound path reason = [] ↔ sound = true := by
  cases sound <;> simp [check]

theorem mem_check {sound : Bool} {path : List Step} {reason : AuthoringReason}
    {f : AuthoringFault} (h : f ∈ check sound path reason) :
    sound = false ∧ f = ⟨path, reason⟩ := by
  cases sound with
  | false => exact ⟨rfl, List.mem_singleton.1 h⟩
  | true => exact absurd h List.not_mem_nil

def blame (path : List Step) (reason : Option AuthoringReason) : List AuthoringFault :=
  reason.toList.map (⟨path, ·⟩)

theorem blame_eq_nil_iff {path : List Step} {reason : Option AuthoringReason} :
    blame path reason = [] ↔ reason = none := by
  cases reason <;> simp [blame]

theorem filled?_some (t : String) : filled? (some t) = if t = "" then none else some t := by
  by_cases h : t = "" <;> simp [filled?, Option.filter, h]

theorem isSome_filled?_iff (text : Option String) :
    (filled? text).isSome = true ↔ ∃ t, text = some t ∧ t ≠ "" := by
  cases text with
  | none => simp [filled?]
  | some t => by_cases h : t = "" <;> simp [filled?_some, h]

end Authoring

open Authoring (filled? check blame check_eq_nil_iff blame_eq_nil_iff knownKinds knownActions)

namespace ConditionRequest

def operator? (r : ConditionRequest) : Option Operator := r.operator.bind Operator.ofName?

def isGroup (r : ConditionRequest) : Bool := r.operator?.any Operator.isLogical

def kindName (r : ConditionRequest) : String := (filled? r.kind).getD "custom"

/-- The second condition is looked at with the first: it is the first, or is reached through the
children of a condition that joins them. -/
inductive Reaches : ConditionRequest → ConditionRequest → Prop
  | self (r : ConditionRequest) : Reaches r r
  | child {r c d : ConditionRequest} (group : r.isGroup = true) (mem : c ∈ r.children)
      (reaches : Reaches c d) : Reaches r d

structure Sound (r : ConditionRequest) : Prop where
  operator : r.operator?.isSome = true
  kind : ∀ kind, r.kind = some kind → kind = "" ∨ kind ∈ knownKinds
  children : r.isGroup = true → r.children ≠ []
  field : r.isGroup = false → ∃ name, r.field = some name ∧ name ≠ ""
  operand : r.isGroup = false → r.operand.loose?.isSome = true

def ownFaults (path : List Step) (r : ConditionRequest) : List AuthoringFault :=
  check r.operator?.isSome (path ++ [.key "operator"]) (.unknownOperator r.operator) ++
    check (knownKinds.contains r.kindName) (path ++ [.key "type"]) (.unknownKind r.kindName) ++
    if r.isGroup then
      check (!r.children.isEmpty) (path ++ [.key "children"]) (.noChildren (r.operator.getD ""))
    else
      check (filled? r.field).isSome (path ++ [.key "field"]) .noField ++
        check r.operand.loose?.isSome (path ++ [.key "value"]) .longOperand

mutual

/-- The faults of a condition, and then those of its children if it joins them. -/
def faults (path : List Step) : ConditionRequest → List AuthoringFault
  | ⟨id, kind, field, operator, operand, children⟩ =>
    ownFaults path ⟨id, kind, field, operator, operand, children⟩ ++
      if isGroup ⟨id, kind, field, operator, operand, children⟩ then
        listFaults (path ++ [.key "children"]) 0 children
      else []

def listFaults (path : List Step) (i : Nat) : List ConditionRequest → List AuthoringFault
  | [] => []
  | r :: rs => faults (path ++ [.index i]) r ++ listFaults path (i + 1) rs

end

theorem kindName_mem_iff (r : ConditionRequest) :
    r.kindName ∈ knownKinds ↔ ∀ kind, r.kind = some kind → kind = "" ∨ kind ∈ knownKinds := by
  have hcustom : "custom" ∈ knownKinds := by decide
  rw [kindName]
  cases r.kind with
  | none => simp [filled?, hcustom]
  | some kind => by_cases hempty : kind = "" <;> simp [Authoring.filled?_some, hempty, hcustom]

theorem ownFaults_eq_nil_iff (path : List Step) (r : ConditionRequest) :
    r.ownFaults path = [] ↔ r.Sound := by
  simp only [ownFaults, List.append_eq_nil_iff, check_eq_nil_iff, List.contains_iff_mem,
    kindName_mem_iff]
  cases hgroup : r.isGroup with
  | true =>
      simp only [if_true, check_eq_nil_iff, Bool.not_eq_true', List.isEmpty_eq_false_iff]
      exact ⟨fun ⟨⟨hoperator, hkind⟩, hchildren⟩ =>
          ⟨hoperator, hkind, fun _ => hchildren, by simp [hgroup], by simp [hgroup]⟩,
        fun h => ⟨⟨h.operator, h.kind⟩, h.children hgroup⟩⟩
  | false =>
      simp only [Bool.false_eq_true, if_false, List.append_eq_nil_iff, check_eq_nil_iff,
        Authoring.isSome_filled?_iff]
      exact ⟨fun ⟨⟨hoperator, hkind⟩, hfield, hoperand⟩ =>
          ⟨hoperator, hkind, by simp [hgroup], fun _ => hfield, fun _ => hoperand⟩,
        fun h => ⟨⟨h.operator, h.kind⟩, h.field hgroup, h.operand hgroup⟩⟩

theorem forall_reaches_iff (r : ConditionRequest) (p : ConditionRequest → Prop) :
    (∀ d, Reaches r d → p d) ↔
      p r ∧ (r.isGroup = true → ∀ c ∈ r.children, ∀ d, Reaches c d → p d) := by
  constructor
  · exact fun h => ⟨h r (.self r), fun hgroup c hc d hd => h d (.child hgroup hc hd)⟩
  · rintro ⟨hself, hchildren⟩ d hd
    cases hd with
    | self => exact hself
    | child group mem reaches => exact hchildren group _ mem d reaches

mutual

/-- There is nothing wrong with a condition just if each one that is reached is sound. -/
theorem faults_eq_nil_iff (path : List Step) : ∀ r : ConditionRequest,
    r.faults path = [] ↔ ∀ d, Reaches r d → d.Sound
  | ⟨id, kind, field, operator, operand, children⟩ => by
      rw [faults, List.append_eq_nil_iff, ownFaults_eq_nil_iff, forall_reaches_iff]
      refine and_congr_right fun _ => ?_
      split
      next hgroup =>
        rw [listFaults_eq_nil_iff]
        exact ⟨fun h _ => h, fun h => h hgroup⟩
      next hleaf => exact iff_of_true rfl fun hgroup => absurd hgroup hleaf

theorem listFaults_eq_nil_iff (path : List Step) (i : Nat) : ∀ rs : List ConditionRequest,
    listFaults path i rs = [] ↔ ∀ c ∈ rs, ∀ d, Reaches c d → d.Sound
  | [] => by simp [listFaults]
  | r :: rs => by
      rw [listFaults, List.append_eq_nil_iff, faults_eq_nil_iff, listFaults_eq_nil_iff,
        List.forall_mem_cons]

end

end ConditionRequest

/-- A number or the text of one, from zero on. -/
def IsAmount (v : Value) : Prop := ∃ d, Writes v d ∧ 0 ≤ d.toRat

/-- A number or the text of one, from zero on, that is not too long: an integer has a text, and the
exponent of a decimal is within bounds. -/
def IsReadableAmount (v : Value) : Prop :=
  ∃ d, Writes v d ∧ 0 ≤ d.toRat ∧ d.inRange = true ∧ ∀ n, v = .int n → tooLong n = false

theorem IsReadableAmount.isAmount {v : Value} (h : IsReadableAmount v) : IsAmount v :=
  h.imp fun _ hd => ⟨hd.1, hd.2.1⟩

namespace ActionRequest

structure Sound (amounts : Value → Prop) (r : ActionRequest) : Prop where
  kind : ∃ kind ∈ knownActions, r.kind = some kind
  amount : r.kind = some "reward" → r.params.get "amount" = .null ∨
    r.params.get "amount" = .text "" ∨ amounts (r.params.get "amount")
  texts : r.kind = some "reward" → ∀ name ∈ ["currency", "description"],
    r.params.get name = .null ∨ ∃ t, r.params.get name = .text t

theorem Sound.mono {amounts amounts' : Value → Prop} {r : ActionRequest} (h : r.Sound amounts)
    (hle : ∀ v, amounts v → amounts' v) : r.Sound amounts' :=
  ⟨h.kind, fun hreward => (h.amount hreward).imp_right (.imp_right (hle _)), h.texts⟩

def rewardFaults (path : List Step) (params : Members) : List AuthoringFault :=
  blame (path ++ [.key "amount"]) (Authoring.amountFault? (params.get "amount")) ++
    blame (path ++ [.key "currency"]) (Authoring.textFault? params "currency") ++
    blame (path ++ [.key "description"]) (Authoring.textFault? params "description")

def faults (path : List Step) (r : ActionRequest) : List AuthoringFault :=
  check (r.kind.any knownActions.contains) (path ++ [.key "type"]) (.unknownAction r.kind) ++
    if r.kind = some "reward" then rewardFaults (path ++ [.key "params"]) r.params else []

def listFaults (path : List Step) (i : Nat) : List ActionRequest → List AuthoringFault
  | [] => []
  | r :: rs => faults (path ++ [.index i]) r ++ listFaults path (i + 1) rs

end ActionRequest

namespace Authoring

theorem numericFault?_eq_none_iff (v : Value) :
    numericFault? v = none ↔ IsReadableAmount v := by
  have hread : numericFault? v = none ↔ ∃ d, Ledger.actionAmount v = .ok d := by
    constructor
    · exact fun h => (exists_of_numericFault? h).imp fun d hd => hd.1
    · rintro ⟨d, hd⟩
      obtain ⟨shown, hshown, hread, hsign⟩ := (Ledger.actionAmount_iff v d).1 hd
      rw [numericFault?, hshown, Option.bind_some, hread]
      exact if_neg (by simp [hsign])
  rw [hread, IsReadableAmount]
  refine exists_congr fun d => ?_
  rw [Ledger.actionAmount_eq_ok_iff, Decimal.isNegative_eq_false_iff]
  tauto

theorem amountFault?_eq_none_iff (v : Value) :
    amountFault? v = none ↔ v = .null ∨ v = .text "" ∨ IsReadableAmount v := by
  have hother (hv : Ledger.isOther v = true) : ¬ IsReadableAmount v := by
    rintro ⟨d, hd, -⟩
    cases hd <;> cases hv
  cases v with
  | null => simp [amountFault?]
  | bool b | list elems | map members => simp [amountFault?, hother rfl]
  | int n => simp [amountFault?, numericFault?_eq_none_iff]
  | double x => simp [amountFault?, numericFault?_eq_none_iff]
  | text t =>
      have hempty : t.isEmpty = true ↔ t = "" := by
        obtain ⟨head, tail⟩ := t
        simp [Text.isEmpty, and_comm]
      rw [amountFault?]
      split
      next h => simp [hempty.1 h]
      next h => simp [numericFault?_eq_none_iff, mt hempty.2 h]

theorem textFault?_eq_none_iff (params : Members) (name : String) :
    textFault? params name = none ↔ params.get name = .null ∨ ∃ t, params.get name = .text t := by
  rw [textFault?]
  split
  next hnull => exact iff_of_true rfl (.inl hnull)
  next t ht => exact iff_of_true rfl (.inr ⟨t, ht⟩)
  next hnull htext =>
    refine iff_of_false (Option.some_ne_none _) ?_
    rintro (h | ⟨t, ht⟩)
    · exact hnull h
    · exact htext t ht

end Authoring

namespace ActionRequest

theorem rewardFaults_eq_nil_iff (path : List Step) (params : Members) :
    rewardFaults path params = [] ↔
      (params.get "amount" = .null ∨ params.get "amount" = .text "" ∨
        IsReadableAmount (params.get "amount")) ∧
        ∀ name ∈ ["currency", "description"],
          params.get name = .null ∨ ∃ t, params.get name = .text t := by
  simp only [rewardFaults, List.append_eq_nil_iff, blame_eq_nil_iff,
    Authoring.amountFault?_eq_none_iff, Authoring.textFault?_eq_none_iff, List.forall_mem_cons,
    List.not_mem_nil, false_implies, implies_true, and_true, and_assoc]

theorem faults_eq_nil_iff (path : List Step) (r : ActionRequest) :
    r.faults path = [] ↔ r.Sound IsReadableAmount := by
  have hkind : r.kind.any knownActions.contains = true ↔
      ∃ kind ∈ knownActions, r.kind = some kind := by
    simp only [Option.any_eq_true, List.contains_iff_mem]
    exact exists_congr fun kind => and_comm
  rw [faults, List.append_eq_nil_iff, check_eq_nil_iff, hkind]
  split
  next hreward =>
    rw [rewardFaults_eq_nil_iff]
    exact ⟨fun ⟨hknown, hamount, htexts⟩ => ⟨hknown, fun _ => hamount, fun _ => htexts⟩,
      fun h => ⟨h.kind, h.amount hreward, h.texts hreward⟩⟩
  next hother =>
    exact ⟨fun h => ⟨h.1, fun hreward => absurd hreward hother,
        fun hreward => absurd hreward hother⟩,
      fun h => ⟨h.kind, rfl⟩⟩

theorem listFaults_eq_nil_iff (path : List Step) (i : Nat) (rs : List ActionRequest) :
    listFaults path i rs = [] ↔ ∀ a ∈ rs, a.Sound IsReadableAmount := by
  induction rs generalizing i with
  | nil => simp [listFaults]
  | cons r rs ih =>
      rw [listFaults, List.append_eq_nil_iff, faults_eq_nil_iff, ih, List.forall_mem_cons]

end ActionRequest

namespace RuleRequest

def trimmedName (r : RuleRequest) : String :=
  String.ofList (Text.trimBy Text.isBlank (r.name.getD "").toList)

/-- What a request has to be, where some values are amounts. -/
structure WellFormed (amounts : Value → Prop) (r : RuleRequest) : Prop where
  name : r.trimmedName ≠ ""
  conditions_ne : r.conditions ≠ []
  actions_ne : r.actions ≠ []
  conditions : ∀ c ∈ r.conditions, ∀ d, ConditionRequest.Reaches c d → d.Sound
  actions : ∀ a ∈ r.actions, a.Sound amounts

/-- All that is wrong with a request, in the order in which authoring looks. -/
def faults (r : RuleRequest) : List AuthoringFault :=
  check (!r.trimmedName.isEmpty) [.key "name"] .missing ++
    check (!r.conditions.isEmpty) [.key "conditions"] .missing ++
    check (!r.actions.isEmpty) [.key "actions"] .missing ++
    ConditionRequest.listFaults [.key "conditions"] 0 r.conditions ++
    ActionRequest.listFaults [.key "actions"] 0 r.actions

theorem WellFormed.mono {amounts amounts' : Value → Prop} {r : RuleRequest}
    (h : r.WellFormed amounts) (hle : ∀ v, amounts v → amounts' v) : r.WellFormed amounts' :=
  ⟨h.name, h.conditions_ne, h.actions_ne, h.conditions, fun a ha => (h.actions a ha).mono hle⟩

theorem faults_eq_nil_iff (r : RuleRequest) : r.faults = [] ↔ r.WellFormed IsReadableAmount := by
  have hname : (!r.trimmedName.isEmpty) = true ↔ r.trimmedName ≠ "" := by simp
  simp only [faults, List.append_eq_nil_iff, check_eq_nil_iff, hname, Bool.not_eq_true',
    List.isEmpty_eq_false_iff, ConditionRequest.listFaults_eq_nil_iff,
    ActionRequest.listFaults_eq_nil_iff]
  exact ⟨fun ⟨⟨⟨⟨hname, hconditions⟩, hactions⟩, hsound⟩, hsound'⟩ =>
      ⟨hname, hconditions, hactions, hsound, hsound'⟩,
    fun h => ⟨⟨⟨⟨h.name, h.conditions_ne⟩, h.actions_ne⟩, h.conditions⟩, h.actions⟩⟩

end RuleRequest

end Referral
