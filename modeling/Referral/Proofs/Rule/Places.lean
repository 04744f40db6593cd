import Referral.Proofs.Rule.WellFormed

namespace Referral

open Schema (Step)
open Authoring (knownKinds knownActions)

def Value.at? : List Step → Value → Option Value
  | [], v => some v
  | .key name :: rest, .map members => (members.lookup (name : Text)).bind (at? rest)
  | .index i :: rest, .list elems => elems[i]?.bind (at? rest)
  | _ :: _, _ => none

theorem Value.at?_append (path rest : List Step) (v : Value) :
    v.at? (path ++ rest) = (v.at? path).bind (at? rest) := by
  induction path generalizing v with
  | nil => rfl
  | cons step path ih =>
      cases step <;> cases v <;> simp [at?, Option.bind_assoc, Option.bind_congr fun w _ => ih w]

/-- The value is what the reason finds wrong. -/
def AuthoringReason.Concerns : AuthoringReason → Value → Prop
  | missing, v => v = .null ∨ v = .list [] ∨
      ∃ t : String, v = .text t ∧ ∀ c ∈ t.toList, Text.isBlank c = true
  | unknownOperator given, v => v = .ofOption given ∧ given.bind Operator.ofName? = none
  | unknownKind given, v => v = .text given ∧ given ≠ "" ∧ given ∉ knownKinds
  | noChildren _, v => v = .list []
  | noField, v => v = .null ∨ v = .text ""
  | longOperand, v => v.loose? = none
  | unknownAction given, v => v = .ofOption given ∧ ∀ kind ∈ knownActions, given ≠ some kind
  | amountNotNumber, v | amountBelowZero, v => v ≠ .null ∧ v ≠ .text "" ∧ ¬ IsReadableAmount v
  | notText _, v => v ≠ .null ∧ ∀ t, v ≠ .text t

/-- The fault is inside the value that stands at the path, and its place is what it is about. -/
def AuthoringFault.Inside (path : List Step) (whole : Value) (f : AuthoringFault) : Prop :=
  ∃ rest v, f.path = path ++ rest ∧ whole.at? rest = some v ∧ f.reason.Concerns v

theorem AuthoringFault.Inside.within {path rest : List Step} {whole part : Value}
    {f : AuthoringFault} (h : f.Inside (path ++ rest) part) (hpart : whole.at? rest = some part) :
    f.Inside path whole := by
  obtain ⟨more, v, hpath, hat, hconcerns⟩ := h
  refine ⟨rest ++ more, v, by rw [hpath, List.append_assoc], ?_, hconcerns⟩
  rw [Value.at?_append, hpart, Option.bind_some, hat]

namespace Authoring

variable {path rest : List Step} {whole v : Value} {f : AuthoringFault}

theorem inside_check {sound : Bool} {reason : AuthoringReason}
    (hf : f ∈ check sound (path ++ rest) reason) (hat : whole.at? rest = some v)
    (hconcerns : sound = false → reason.Concerns v) : f.Inside path whole := by
  obtain ⟨hbroken, rfl⟩ := mem_check hf
  exact ⟨rest, v, rfl, hat, hconcerns hbroken⟩

theorem concerns_ofOption {given : Option String} (h : (filled? given).isSome = false) :
    AuthoringReason.noField.Concerns (.ofOption given) := by
  have hempty := mt (isSome_filled?_iff given).2 (Bool.eq_false_iff.1 h)
  cases given with
  | none => exact .inl rfl
  | some t =>
      obtain rfl : t = "" := by simpa using hempty
      exact .inr rfl

end Authoring

namespace ConditionRequest

open Authoring

theorem concerns_kindName {r : ConditionRequest} (h : knownKinds.contains r.kindName = false) :
    (AuthoringReason.unknownKind r.kindName).Concerns (.ofOption r.kind) := by
  have hunknown : r.kindName ∉ knownKinds := fun hmem => by
    rw [List.contains_iff_mem.2 hmem] at h
    cases h
  have hkind := mt (kindName_mem_iff r).2 hunknown
  push Not at hkind
  obtain ⟨kind, hgiven, hfilled, -⟩ := hkind
  have hname : r.kindName = kind := by
    rw [kindName, hgiven, filled?_some, if_neg hfilled, Option.getD_some]
  rw [hname] at hunknown ⊢
  exact ⟨congrArg Value.ofOption hgiven, hfilled, hunknown⟩

theorem inside_ownFaults (path : List Step) (r : ConditionRequest) {f : AuthoringFault}
    (hf : f ∈ r.ownFaults path) : f.Inside path r.wire := by
  obtain ⟨id, kind, field, operator, operand, children⟩ := r
  rw [ownFaults, List.mem_append, List.mem_append] at hf
  rcases hf with (hoperator | hkind) | hshape
  · exact inside_check hoperator rfl fun hunknown => ⟨rfl, by simpa [operator?] using hunknown⟩
  · exact inside_check hkind rfl concerns_kindName
  split at hshape
  · refine inside_check hshape rfl fun hempty => ?_
    obtain rfl : children = [] := by simpa using hempty
    rfl
  · rcases List.mem_append.1 hshape with hfield | hoperand
    · exact inside_check hfield rfl concerns_ofOption
    · exact inside_check hoperand rfl fun hlong =>
        Option.not_isSome_iff_eq_none.1 (Bool.eq_false_iff.1 hlong)

mutual

theorem inside_faults (path : List Step) : ∀ (r : ConditionRequest) {f : AuthoringFault},
    f ∈ r.faults path → f.Inside path r.wire
  | ⟨id, kind, field, operator, operand, children⟩, f, hf => by
      rw [faults] at hf
      rcases List.mem_append.1 hf with hown | hchildren
      · exact inside_ownFaults path _ hown
      split at hchildren
      · exact (inside_listFaults _ [] children hchildren).within rfl
      · cases hchildren

theorem inside_listFaults (path : List Step) (before : List Value) :
    ∀ (rs : List ConditionRequest) {f : AuthoringFault},
      f ∈ listFaults path before.length rs → f.Inside path (.list (before ++ wires rs))
  | [], f, hf => by
      rw [listFaults] at hf
      cases hf
  | r :: rs, f, hf => by
      rw [listFaults] at hf
      rw [wires]
      rcases List.mem_append.1 hf with hfirst | hrest
      · refine (inside_faults _ r hfirst).within ?_
        simp [Value.at?]
      · have hlater := inside_listFaults path (before ++ [wire r]) rs (by simpa using hrest)
        simpa using hlater

end

end ConditionRequest

namespace ActionRequest

open Authoring

theorem at?_get {params : Members} {name : String} (h : params.get name ≠ .null) :
    (Value.map params).at? [.key name] = some (params.get name) := by
  rw [Members.get] at h ⊢
  change (params.value? name).bind some = _
  cases hvalue : params.value? name with
  | none => exact absurd (congrArg (Option.getD · .null) hvalue) h
  | some v => rfl

theorem inside_blame {path : List Step} {params : Members} {name : String}
    {reason : Option AuthoringReason} {f : AuthoringFault}
    (hf : f ∈ blame (path ++ [.key name]) reason) (hnull : params.get name = .null → reason = none)
    (hconcerns : ∀ r, reason = some r → r.Concerns (params.get name)) :
    f.Inside path (.map params) := by
  obtain ⟨r, hr, rfl⟩ := List.mem_map.1 hf
  rw [Option.mem_toList] at hr
  refine ⟨[.key name], _, rfl, at?_get fun h => ?_, hconcerns r hr⟩
  rw [hnull h] at hr
  cases hr

theorem concerns_amountFault? {v : Value} {r : AuthoringReason} (h : amountFault? v = some r) :
    r.Concerns v := by
  have hfaulty : ¬ amountFault? v = none := by simp [h]
  rw [amountFault?_eq_none_iff] at hfaulty
  push Not at hfaulty
  have hnumeric (h : numericFault? v = some r) : r.Concerns v := by
    rw [numericFault?] at h
    split at h
    next => exact Option.some.inj h ▸ hfaulty
    next =>
      split at h
      · exact Option.some.inj h ▸ hfaulty
      · cases h
    next => exact Option.some.inj h ▸ hfaulty
  cases v with
  | null => cases h
  | bool b | list elems | map members =>
      cases h
      exact hfaulty
  | int n | double x => exact hnumeric h
  | text t =>
      rw [amountFault?] at h
      split at h
      · cases h
      · exact hnumeric h

theorem concerns_textFault? {params : Members} {name : String} {r : AuthoringReason}
    (h : textFault? params name = some r) : r.Concerns (params.get name) := by
  rw [textFault?] at h
  split at h
  next => cases h
  next => cases h
  next hnull htext => exact Option.some.inj h ▸ ⟨hnull, htext⟩

theorem inside_rewardFaults (path : List Step) (params : Members) {f : AuthoringFault}
    (hf : f ∈ rewardFaults path params) : f.Inside path (.map params) := by
  have htext {name : String} (hnull : params.get name = .null) : textFault? params name = none :=
    (textFault?_eq_none_iff params name).2 (.inl hnull)
  rw [rewardFaults, List.mem_append, List.mem_append] at hf
  rcases hf with (hamount | hcurrency) | hdescription
  · exact inside_blame hamount (fun hnull => by rw [hnull, amountFault?]) fun _ =>
      concerns_amountFault?
  · exact inside_blame hcurrency htext fun _ => concerns_textFault?
  · exact inside_blame hdescription htext fun _ => concerns_textFault?

theorem inside_faults (path : List Step) (r : ActionRequest) {f : AuthoringFault}
    (hf : f ∈ r.faults path) : f.Inside path r.wire := by
  rw [faults] at hf
  rcases List.mem_append.1 hf with hkind | hparams
  · exact inside_check hkind rfl fun hunknown => ⟨rfl, by
      rintro kind hknown hkind
      simp [hkind, hknown] at hunknown⟩
  split at hparams
  · exact (inside_rewardFaults _ r.params hparams).within rfl
  · cases hparams

theorem inside_listFaults (path : List Step) (before : List Value) (rs : List ActionRequest)
    {f : AuthoringFault} (hf : f ∈ listFaults path before.length rs) :
    f.Inside path (.list (before ++ rs.map wire)) := by
  induction rs generalizing before with
  | nil => cases hf
  | cons r rs ih =>
      rw [listFaults] at hf
      rcases List.mem_append.1 hf with hfirst | hrest
      · refine (inside_faults _ r hfirst).within ?_
        simp [Value.at?]
      · have hlater := ih (before ++ [wire r]) (by simpa using hrest)
        simpa using hlater

end ActionRequest

namespace RuleRequest

open Authoring

def wire (r : RuleRequest) : Value :=
  .map [("name", .ofOption r.name), ("conditions", .list (ConditionRequest.wires r.conditions)),
    ("actions", .list (r.actions.map ActionRequest.wire)), ("enabled", .bool r.enabled)]

theorem concerns_name {r : RuleRequest} (h : r.trimmedName = "") :
    AuthoringReason.missing.Concerns (.ofOption r.name) := by
  rw [trimmedName, String.ofList_eq_empty_iff] at h
  cases hname : r.name with
  | none => exact .inl rfl
  | some t =>
      rw [hname] at h
      refine .inr (.inr ⟨t, rfl, fun c hc => ?_⟩)
      by_contra hprinted
      have hmem := mem_trimBy (Bool.eq_false_iff.2 hprinted) hc
      rw [Option.getD_some] at h
      rw [h] at hmem
      cases hmem

theorem inside_faults (r : RuleRequest) {f : AuthoringFault} (hf : f ∈ r.faults) :
    f.Inside [] r.wire := by
  simp only [faults, List.mem_append] at hf
  rcases hf with (((hname | hconditions) | hactions) | hcondition) | haction
  · exact inside_check hname rfl fun hblank => concerns_name (by simpa using hblank)
  · refine inside_check hconditions rfl fun hempty => .inr (.inl ?_)
    have hnil : r.conditions = [] := by simpa using hempty
    rw [hnil, ConditionRequest.wires]
  · refine inside_check hactions rfl fun hempty => .inr (.inl ?_)
    have hnil : r.actions = [] := by simpa using hempty
    rw [hnil, List.map_nil]
  · exact (ConditionRequest.inside_listFaults _ [] r.conditions hcondition).within rfl
  · exact (ActionRequest.inside_listFaults _ [] r.actions haction).within rfl

end RuleRequest

end Referral
