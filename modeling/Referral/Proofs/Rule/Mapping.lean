import Referral.Proofs.Table
import Referral.Proofs.Time.Iso
import Referral.Rule.Basic

namespace Referral

@[simp] theorem Value.orElse_orElse (v default : Value) :
    (v.orElse default).orElse default = v.orElse default := by
  by_cases h : v.isFalsy <;> simp [Value.orElse, h]

theorem Members.get_cons (key name : Text) (v : Value) (rest : Members) :
    Members.get ((key, v) :: rest) name = if name = key then v else rest.get name := by
  rw [get, value?, Table.lookup_cons_eq_ite]
  split <;> rfl

namespace Operator

theorem toValue_of_ofName? {name : String} {op : Operator} (h : ofName? name = some op) :
    op.toValue = .text name := by
  simp only [ofName?, named, Table.lookup_cons_eq_ite, List.lookup_nil] at h
  repeat' split at h
  all_goals
    cases h
  all_goals
    subst name
    rfl

@[simp] theorem ofValue_toValue_ofValue (v : Value) : ofValue (ofValue v).toValue = ofValue v := by
  cases v with
  | text t =>
      cases hname : t.string?.bind ofName? with
      | none => simp [ofValue, hname, toValue]
      | some op =>
          obtain ⟨name, -, hop⟩ := Option.bind_eq_some_iff.1 hname
          have hread : ofValue (.text t) = op := by simp [ofValue, hname]
          rw [hread, toValue_of_ofName? hop]
          simp [ofValue, Text.string?, hop]
  | null | bool | int | double | list | map => rfl

end Operator

namespace ActionKind

theorem ofValue_eq_other {v : Value} (hreward : v ≠ .text "reward")
    (hnotification : v ≠ .text "notification") : ofValue v = other v := by
  rw [ofValue]
  · exact hreward
  · exact hnotification

@[simp] theorem ofValue_toValue_ofValue (v : Value) : ofValue (ofValue v).toValue = ofValue v := by
  by_cases hreward : v = .text "reward"
  · rw [hreward]
    rfl
  by_cases hnotification : v = .text "notification"
  · rw [hnotification]
    rfl
  rw [ofValue_eq_other hreward hnotification, toValue, ofValue_eq_other hreward hnotification]

end ActionKind

namespace Condition

theorem ofValue_members (id kind field operator operand : Value) (children : List Value) :
    ofValue (.map [("id", id), ("type", kind), ("field", field), ("operator", operator),
        ("value", operand), ("children", .list children)]) =
      if (Operator.ofValue operator).isLogical then
        (ofList children).map fun cs =>
          group (.ofValue operator) cs id (kind.orElse defaultKind) field
      else .ok (leaf field (.ofValue operator) operand id (kind.orElse defaultKind)) := by
  have hchildren : childrenOf [("id", id), ("type", kind), ("field", field),
      ("operator", operator), ("value", operand), ("children", .list children)] =
      ofList children := by
    simp [childrenOf, listOf]
  rw [ofValue, hchildren]
  simp only [Members.get_cons]
  cases ofList children <;> rfl

theorem eq_nil_of_listOf {v : Value} {cs : List Condition} (hlist : ∀ elems, v ≠ .list elems)
    (h : listOf v = .ok cs) : cs = [] := by
  cases v with
  | list elems => exact absurd rfl (hlist elems)
  | null | bool | int | double | text | map =>
      simp only [listOf] at h
      split at h
      · exact (Except.ok.inj h).symm
      · cases h

mutual

theorem ofValue_toValue :
    ∀ {v : Value} {c : Condition}, ofValue v = .ok c → ofValue c.toValue = .ok c
  | .map members, c, h => by
      rw [ofValue] at h
      split at h
      next hlogical =>
        cases hchildren : childrenOf members with
        | error fault => simp [hchildren, bind, Except.bind] at h
        | ok cs =>
            simp only [hchildren, bind, Except.bind, pure, Except.pure, Except.ok.injEq] at h
            subst h
            rw [toValue, ofValue_members, Operator.ofValue_toValue_ofValue, if_pos hlogical,
              ofList_of_childrenOf hchildren, Value.orElse_orElse]
            rfl
      next hleaf =>
        cases h
        rw [toValue, ofValue_members, Operator.ofValue_toValue_ofValue, if_neg hleaf,
          Value.orElse_orElse]

theorem ofList_of_childrenOf : ∀ {members : Members} {cs : List Condition},
    childrenOf members = .ok cs → ofList (listToValue cs) = .ok cs
  | [], cs, h => by
      cases h
      rfl
  | (key, v) :: rest, cs, h => by
      rw [childrenOf] at h
      split at h
      · exact ofList_of_listOf h
      · exact ofList_of_childrenOf h

theorem ofList_of_listOf : ∀ {v : Value} {cs : List Condition},
    listOf v = .ok cs → ofList (listToValue cs) = .ok cs
  | .list elems, cs, h => by
      rw [listOf] at h
      exact ofList_listToValue h
  | .null, cs, h | .bool _, cs, h | .int _, cs, h | .double _, cs, h | .text _, cs, h
  | .map _, cs, h => by
      rw [eq_nil_of_listOf (by simp) h]
      rfl

theorem ofList_listToValue : ∀ {vs : List Value} {cs : List Condition},
    ofList vs = .ok cs → ofList (listToValue cs) = .ok cs
  | [], cs, h => by
      cases h
      rfl
  | v :: vs, cs, h => by
      rw [ofList] at h
      cases hfirst : ofValue v with
      | error fault => simp [hfirst, bind, Except.bind] at h
      | ok c =>
          cases hrest : ofList vs with
          | error fault => simp [hfirst, hrest, bind, Except.bind] at h
          | ok rest =>
              simp only [hfirst, hrest, bind, Except.bind, pure, Except.pure, Except.ok.injEq] at h
              subst h
              rw [listToValue, ofList, ofValue_toValue hfirst, ofList_listToValue hrest]
              rfl

end

end Condition

section Lists

variable {α β ε : Type} {f : α → Except ε β}

theorem forall_of_mapM {p : β → Prop} (hf : ∀ x y, f x = .ok y → p y) {xs : List α} {ys : List β}
    (h : xs.mapM f = .ok ys) : ∀ y ∈ ys, p y := by
  induction xs generalizing ys with
  | nil =>
      cases h
      simp
  | cons x xs ih =>
      rw [List.mapM_cons] at h
      cases hfirst : f x with
      | error fault => simp [hfirst, bind, Except.bind] at h
      | ok y =>
          cases hrest : xs.mapM f with
          | error fault => simp [hfirst, hrest, bind, Except.bind] at h
          | ok rest =>
              simp only [hfirst, hrest, bind, Except.bind, pure, Except.pure,
                Except.ok.injEq] at h
              subst h
              rw [List.forall_mem_cons]
              exact ⟨hf x y hfirst, ih hrest⟩

theorem mapM_map_eq_ok {g : β → α} {ys : List β} (h : ∀ y ∈ ys, f (g y) = .ok y) :
    (ys.map g).mapM f = .ok ys := by
  induction ys with
  | nil => rfl
  | cons y ys ih =>
      rw [List.forall_mem_cons] at h
      rw [List.map_cons, List.mapM_cons, h.1, ih h.2]
      rfl

end Lists

theorem Action.ofMapping_toMapping {m : ActionMapping} {a : Action} (h : ofMapping m = .ok a) :
    ofMapping a.toMapping = .ok a := by
  rw [ofMapping] at h
  cases hparams : m.params.read with
  | error fault => simp [hparams, bind, Except.bind] at h
  | ok params =>
      simp only [hparams, bind, Except.bind, pure, Except.pure, Except.ok.injEq] at h
      subst h
      simp only [ofMapping, toMapping, ActionKind.ofValue_toValue_ofValue]
      rfl

theorem Action.ofMapping_toMapping_of_ofValue {v : Value} {a : Action} (h : ofValue v = .ok a) :
    ofMapping a.toMapping = .ok a := by
  cases v with
  | map members => exact ofMapping_toMapping h
  | null | bool | int | double | text | list => cases h

/-- All keys of the parameters are texts, no one twice. -/
def Action.TextKeys (a : Action) : Prop :=
  ∃ members : Members, (members.map Prod.fst).Nodup ∧ a.params = .ofMembers members

theorem Params.toMembers_ofMembers {members : Members} (h : (members.map Prod.fst).Nodup) :
    (ofMembers members).toMembers = members := by
  have happend : ∀ before : Members, ((before ++ members).map Prod.fst).Nodup →
      (ofMembers members).foldl (fun ms row => setRow (keyText row.1) row.2 ms) before =
        before ++ members := by
    clear h
    induction members with
    | nil => exact fun before _ => (List.append_nil before).symm
    | cons row members ih =>
        intro before hnodup
        have hnew : row.1 ∉ before.map Prod.fst := by
          intro hmem
          rw [List.map_append, List.nodup_append] at hnodup
          exact hnodup.2.2 _ hmem _ (by simp) rfl
        have hrow : setRow (keyText (.text row.1)) row.2 before = before ++ [row] :=
          Table.setRow_of_notMem row.1 row.2 before hnew
        rw [ofMembers, List.map_cons, List.foldl_cons]
        dsimp only
        rw [hrow]
        have hrest := ih (before ++ [row]) (by simpa using hnodup)
        simpa [ofMembers] using hrest
  exact happend [] h

theorem Action.ofValue_toValue {a : Action} (hkeys : a.TextKeys)
    (h : ofMapping a.toMapping = .ok a) : ofValue a.toValue = .ok a := by
  obtain ⟨members, hnodup, hparams⟩ := hkeys
  have hread : paramsOf (.map members) = .ok a.params := by
    rw [hparams, paramsOf]
    cases members <;> rfl
  have hmapping : ActionMapping.ofMembers [("id", a.id), ("type", a.kind.toValue),
      ("params", .map members)] = ⟨a.id, a.kind.toValue, .value (.map members)⟩ := by
    simp [ActionMapping.ofMembers, Members.get_cons]
  have hkind : ActionKind.ofValue a.kind.toValue = a.kind := by
    simp only [ofMapping, toMapping, GivenParams.read] at h
    exact congrArg Action.kind (Except.ok.inj h)
  rw [toValue, toMapping, ActionMapping.toValue, GivenParams.toValue, hparams,
    Params.toMembers_ofMembers hnodup, ofValue, hmapping, ofMapping]
  simp only [GivenParams.read, hread, hkind]
  rfl

theorem GivenActions.forall_of_read {given : GivenActions} {as : List Action}
    (h : given.read = .ok as) : ∀ a ∈ as, Action.ofMapping a.toMapping = .ok a := by
  match given with
  | .mappings ms => exact forall_of_mapM (fun _ _ => Action.ofMapping_toMapping) h
  | .value (.list elems) =>
      exact forall_of_mapM (fun _ _ => Action.ofMapping_toMapping_of_ofValue) h
  | .value .null | .value (.bool _) | .value (.int _) | .value (.double _) | .value (.text _)
  | .value (.map _) =>
      simp only [read] at h
      split at h
      · cases h
        simp
      · cases h

def Source.Universal (source : Source) : Prop := ∀ n, (source.reading n).offset = some .utc

theorem Source.Universal.legible {source : Source} (hu : source.Universal) (n : Nat) :
    Iso.Legible (source.reading n) := by
  intro o ho
  rw [hu n] at ho
  cases ho
  exact .inl rfl

theorem universal_counting {start : Timestamp} (h : start.offset = some .utc) (step : Int) :
    (Source.counting start step).Universal := by
  intro n
  simp only [Source.counting]
  cases hlater : start.later? (step * ((n : Int) - 1)) with
  | none => exact h
  | some t =>
      simp only [Timestamp.later?, Timestamp.ofWall?, Option.bind_eq_bind,
        Option.bind_eq_some_iff] at hlater
      obtain ⟨date, -, time, -, ht⟩ := hlater
      split at ht
      · cases ht
      · cases ht
        exact h

namespace Rule

theorem legible_of_timeOf {v : Value} {default t : Timestamp} (hdefault : Iso.Legible default)
    (h : timeOf v default = .ok t) : Iso.Legible t := by
  cases v with
  | text text =>
      simp only [timeOf] at h
      split at h
      · cases h
        exact hdefault
      · cases hread : Iso.readText? text with
        | none =>
            rw [hread] at h
            cases h
        | some t' =>
            rw [hread] at h
            cases h
            exact Iso.legible_of_readText? hread
  | null | bool | int | double | list | map =>
      simp only [timeOf] at h
      split at h
      · cases h
        exact hdefault
      · cases h

theorem timeOf_text {t : Timestamp} (ht : Iso.Legible t) (default : Timestamp) :
    timeOf (.text (Iso.text t)) default = .ok t := by
  have hwritten : (Value.text (Iso.text t)).isFalsy = false := by
    rw [Value.isFalsy, Text.isEmpty]
    exact String.isEmpty_eq_false_iff.2 (Iso.text_ne_empty t)
  simp only [timeOf, hwritten, Bool.false_eq_true, if_false, Iso.readText?_text ht]
  rfl

theorem exists_of_ofMapping {m : RuleMapping} {rule : Timestamp → Timestamp → Rule}
    (h : ofMapping m = .ok rule) :
    ∃ cs as, Condition.listOf m.conditions = .ok cs ∧ m.actions.read = .ok as ∧
      rule = fun createdAt updatedAt =>
        ⟨m.id, m.name, m.enabled, cs, as, createdAt, updatedAt⟩ := by
  rw [ofMapping] at h
  cases hconditions : Condition.listOf m.conditions with
  | error fault => simp [hconditions, bind, Except.bind] at h
  | ok cs =>
      cases hactions : m.actions.read with
      | error fault => simp [hconditions, hactions, bind, Except.bind] at h
      | ok as =>
          simp only [hconditions, hactions, bind, Except.bind, pure, Except.pure,
            Except.ok.injEq] at h
          exact ⟨cs, as, rfl, rfl, h.symm⟩

theorem exists_of_timed {m : RuleMapping} {rule : Timestamp → Timestamp → Rule}
    {created updated : Timestamp} {r : Rule} (h : timed m rule created updated = .ok r) :
    ∃ createdAt updatedAt, timeOf m.createdAt created = .ok createdAt ∧
      timeOf m.updatedAt updated = .ok updatedAt ∧ r = rule createdAt updatedAt := by
  rw [timed] at h
  cases hcreated : timeOf m.createdAt created with
  | error fault => simp [hcreated, bind, Except.bind] at h
  | ok createdAt =>
      cases hupdated : timeOf m.updatedAt updated with
      | error fault => simp [hcreated, hupdated, bind, Except.bind] at h
      | ok updatedAt =>
          simp only [hcreated, hupdated, bind, Except.bind, pure, Except.pure,
            Except.ok.injEq] at h
          exact ⟨createdAt, updatedAt, rfl, rfl, h.symm⟩

/-- Each part of the rule is read again from what is written of it. -/
structure Legible (r : Rule) : Prop where
  conditions : Condition.ofList (Condition.listToValue r.conditions) = .ok r.conditions
  actions : ∀ a ∈ r.actions, Action.ofMapping a.toMapping = .ok a
  createdAt : Iso.Legible r.createdAt
  updatedAt : Iso.Legible r.updatedAt

theorem legible_of_readMapping {source : Source} (hu : source.Universal) {m : RuleMapping}
    {s s' : Supply} {r : Rule} (h : readMapping source m s = (.ok r, s')) : r.Legible := by
  rw [readMapping] at h
  cases hrule : ofMapping m with
  | error fault => simp [hrule] at h
  | ok rule =>
      simp only [hrule, Supply.readClock, Prod.mk.injEq] at h
      obtain ⟨createdAt, updatedAt, hcreated, hupdated, rfl⟩ := exists_of_timed h.1
      obtain ⟨cs, as, hconditions, hactions, rfl⟩ := exists_of_ofMapping hrule
      exact ⟨Condition.ofList_of_listOf hconditions, GivenActions.forall_of_read hactions,
        legible_of_timeOf (hu.legible _) hcreated, legible_of_timeOf (hu.legible _) hupdated⟩

theorem Legible.readMapping_actions {r : Rule} (h : r.Legible) {actions : GivenActions}
    (hactions : actions.read = .ok r.actions) (source : Source) (s : Supply) :
    ∃ s', readMapping source { r.toMapping with actions := actions } s = (.ok r, s') := by
  have hconditions : Condition.listOf r.toMapping.conditions = .ok r.conditions := by
    rw [toMapping, Condition.listOf]
    exact h.conditions
  have hrule : ofMapping { r.toMapping with actions := actions } = .ok fun createdAt updatedAt =>
      { r with createdAt := createdAt, updatedAt := updatedAt } := by
    simp only [ofMapping, hconditions, hactions]
    rfl
  have htimed : ∀ created updated, timed { r.toMapping with actions := actions }
      (fun createdAt updatedAt => { r with createdAt := createdAt, updatedAt := updatedAt })
      created updated = .ok r := by
    intro created updated
    simp only [timed, toMapping, timeOf_text h.createdAt, timeOf_text h.updatedAt]
    rfl
  rw [readMapping, hrule]
  exact ⟨_, congrArg₂ Prod.mk (htimed _ _) rfl⟩

theorem Legible.readMapping {r : Rule} (h : r.Legible) (source : Source) (s : Supply) :
    ∃ s', readMapping source r.toMapping s = (.ok r, s') := by
  have hactions : r.toMapping.actions.read = .ok r.actions := mapM_map_eq_ok h.actions
  exact h.readMapping_actions hactions source s

theorem Legible.read {r : Rule} (h : r.Legible) (hkeys : ∀ a ∈ r.actions, a.TextKeys)
    (source : Source) (s : Supply) : ∃ s', read source r.toValue s = (.ok r, s') := by
  have hactions : GivenActions.read (.value (.list (r.actions.map Action.toValue))) =
      .ok r.actions :=
    mapM_map_eq_ok fun a ha => Action.ofValue_toValue (hkeys a ha) (h.actions a ha)
  obtain ⟨s', hread⟩ := h.readMapping_actions hactions source s
  have hmapping : RuleMapping.ofMembers [("id", r.id), ("name", r.name), ("enabled", r.enabled),
      ("conditions", .list (Condition.listToValue r.conditions)),
      ("actions", .list (r.actions.map Action.toValue)),
      ("createdAt", .text (Iso.text r.createdAt)), ("updatedAt", .text (Iso.text r.updatedAt))] =
      .ok { r.toMapping with actions := .value (.list (r.actions.map Action.toValue)) } := by
    rfl
  refine ⟨s', ?_⟩
  rw [← hread, toValue, RuleMapping.toValue, Rule.read]
  simp only [toMapping, GivenActions.toValue, List.map_map]
  rw [show ActionMapping.toValue ∘ Action.toMapping = Action.toValue from rfl, hmapping]
  rfl

/-- A rule that was read from a document or from a mapping is read again from its own mapping, and
from its own document where all keys of parameters are texts. -/
theorem read_again {source : Source} (hu : source.Universal) :
    (∀ v s r s', Rule.read source v s = (.ok r, s') →
      ∀ t, ∃ t', Rule.readMapping source r.toMapping t = (.ok r, t')) ∧
    (∀ m s r s', Rule.readMapping source m s = (.ok r, s') →
      ∀ t, ∃ t', Rule.readMapping source r.toMapping t = (.ok r, t')) ∧
    (∀ v s r s', Rule.read source v s = (.ok r, s') → (∀ a ∈ r.actions, a.TextKeys) →
      ∀ t, ∃ t', Rule.read source r.toValue t = (.ok r, t')) := by
  have hlegible : ∀ v s r s', Rule.read source v s = (.ok r, s') → r.Legible := by
    intro v s r s' h
    cases v with
    | map members =>
        rw [Rule.read] at h
        cases hm : RuleMapping.ofMembers members with
        | error fault => simp [hm] at h
        | ok m =>
            simp only [hm] at h
            exact legible_of_readMapping hu h
    | null | bool | int | double | text | list => cases h
  refine ⟨fun v s r s' h t => ?_, fun m s r s' h t => ?_, fun v s r s' h hkeys t => ?_⟩
  · exact (hlegible v s r s' h).readMapping source t
  · exact (legible_of_readMapping hu h).readMapping source t
  · exact (hlegible v s r s' h).read hkeys source t

/-- A group without a kind around a leaf that names children, under an operator that is not known,
parameters in pairs, one of them under a number, and an offset down to fractions of a second. -/
def knotted : Value :=
  .map [("id", .int 7), ("name", .null),
    ("conditions", .list [.map [("operator", .text "or"), ("type", .text ""), ("value", .int 3),
      ("children", .list [.map [("operator", .text "near"), ("field", .int 1),
        ("children", .list [.null])]])]]),
    ("actions", .list [.map [("type", .text "teleport"),
      ("params", .list [.list [.int 1, .text "x"], .text "ab"])]]),
    ("updatedAt", .text "2024-W09-4T23:59:59,5-05:30:15.25")]

theorem read_again_knotted :
    let source := Source.counting ⟨⟨2024, 1, 1, by decide⟩, .midnight, some .utc⟩ 1000000
    source.Universal ∧
      ∃ r s', Rule.read source knotted .fresh = (.ok r, s') ∧
        r.actions.map (fun a => a.params.map Prod.fst) = [[.int 1, .text "a"]] ∧
        r.updatedAt.offset.map (·.micros) = some (-19815250000) ∧
        ∃ t', Rule.readMapping source r.toMapping s' = (.ok r, t') := by
  intro source
  have hu : source.Universal := universal_counting rfl 1000000
  have hread : ∃ r s', Rule.read source knotted .fresh = (.ok r, s') ∧
      r.actions.map (fun a => a.params.map Prod.fst) = [[.int 1, .text "a"]] ∧
      r.updatedAt.offset.map (·.micros) = some (-19815250000) :=
    ⟨_, _, by with_unfolding_all rfl, by with_unfolding_all rfl, by decide +kernel⟩
  obtain ⟨r, s', hr, hparams, hoffset⟩ := hread
  exact ⟨hu, r, s', hr, hparams, hoffset, (read_again hu).1 _ _ _ _ hr s'⟩

end Rule

end Referral
