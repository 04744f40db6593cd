import Referral.Proofs.Rule.Agreement
import Referral.Proofs.Rule.Leaf

namespace Referral

namespace Operator

def join : Operator → List Bool → Bool
  | all, results => results.all id
  | any, results => results.any id
  | _, _ => false

theorem join_all_iff {results : List Bool} : all.join results = true ↔ false ∉ results := by
  simp [join]

theorem join_any_iff {results : List Bool} : any.join results = true ↔ true ∈ results := by
  simp [join]

theorem join_congr (op : Operator) {xs ys : List Bool} (h : ∀ b, b ∈ xs ↔ b ∈ ys) :
    op.join xs = op.join ys := by
  cases op with
  | all => rw [Bool.eq_iff_iff, join_all_iff, join_all_iff, h]
  | any => rw [Bool.eq_iff_iff, join_any_iff, join_any_iff, h]
  | equals | notEquals | greaterThan | lessThan | contains | other given => rfl

theorem join_flatten (op : Operator) (xs inner ys : List Bool) :
    op.join (xs ++ op.join inner :: ys) = op.join (xs ++ (inner ++ ys)) := by
  cases op with
  | all => simp [join]
  | any => simp [join]
  | equals | notEquals | greaterThan | lessThan | contains | other given => rfl

end Operator

namespace Condition

variable {context : Members}

mutual

/-- Whether the condition holds if all its leaves are looked at, whatever the others come to; absent
where any of them fails. -/
def strictIn? (context : Value) : Condition → Option Bool
  | leaf field operator operand _ _ => leafHoldsIn? field operator operand context
  | group operator children _ _ _ => (listStrictIn? context children).map operator.join

def listStrictIn? (context : Value) : List Condition → Option (List Bool)
  | [] => some []
  | c :: cs => do
    let result ← strictIn? context c
    let results ← listStrictIn? context cs
    return result :: results

end

theorem anyHolds_eq_any (context : Members) (cs : List Condition) :
    anyHolds context cs = cs.any (holds context) := by
  induction cs with
  | nil => rfl
  | cons c cs ih => rw [anyHolds, List.any_cons, ih]

theorem holds_group (context : Members) (op : Operator) (cs : List Condition)
    (id kind field : Value) :
    (group op cs id kind field).holds context = op.join (cs.map (holds context)) := by
  cases op with
  | all => simp [holds, Operator.join, allHold_eq_all, List.all_map]
  | any => simp [holds, Operator.join, anyHolds_eq_any, List.any_map]
  | equals | notEquals | greaterThan | lessThan | contains | other given =>
      simp [holds, Operator.join]

mutual

theorem strictIn?_map : ∀ c : Condition, strictIn? (.map context) c = some (holds context c)
  | leaf .. => by rw [strictIn?, holds, leafHoldsIn?]
  | group operator children id kind field => by
      rw [strictIn?, listStrictIn?_map children, holds_group]
      rfl

theorem listStrictIn?_map : ∀ cs : List Condition,
    listStrictIn? (.map context) cs = some (cs.map (holds context))
  | [] => rfl
  | c :: cs => by
      rw [listStrictIn?, strictIn?_map c, listStrictIn?_map cs]
      rfl

end

/-- Lists of children that say the same under an operator: in another order, with one of them twice,
with the children of one in its place if it joins them by the same operator, or with such a change
deeper down. -/
inductive Regroups : Operator → List Condition → List Condition → Prop
  | reorder {op cs ds} (perm : cs.Perm ds) : Regroups op cs ds
  | duplicate {op c cs} (mem : c ∈ cs) : Regroups op cs (c :: cs)
  | flatten {op xs cs ys id kind field} :
      Regroups op (xs ++ group op cs id kind field :: ys) (xs ++ (cs ++ ys))
  | within {op inner xs cs ds ys id kind field} (regroups : Regroups inner cs ds) :
      Regroups op (xs ++ group inner cs id kind field :: ys)
        (xs ++ group inner ds id kind field :: ys)
  | back {op cs ds} (regroups : Regroups op ds cs) : Regroups op cs ds
  | trans {op cs ds es} (first : Regroups op cs ds) (second : Regroups op ds es) :
      Regroups op cs es

theorem Regroups.join_eq {op : Operator} {cs ds : List Condition} (h : Regroups op cs ds)
    (context : Members) : op.join (cs.map (holds context)) = op.join (ds.map (holds context)) := by
  induction h with
  | reorder perm => exact Operator.join_congr _ fun b => (perm.map _).mem_iff
  | @duplicate op c cs mem =>
      refine op.join_congr fun b => ?_
      rw [List.map_cons, List.mem_cons, or_iff_right_of_imp]
      rintro rfl
      exact List.mem_map_of_mem mem
  | flatten =>
      rw [List.map_append, List.map_cons, holds_group, Operator.join_flatten, List.map_append,
        List.map_append]
  | within _ ih =>
      rw [List.map_append, List.map_append, List.map_cons, List.map_cons, holds_group, holds_group,
        ih]
  | back _ ih => exact ih.symm
  | trans _ _ ih ih' => exact ih.trans ih'

end Condition

namespace Rule

theorem holds_eq_join (context : Members) (r : Rule) :
    r.holds context =
      (!r.enabled.isFalsy && Operator.all.join (r.conditions.map (Condition.holds context))) := by
  rw [holds, Condition.allHold_eq_all, Operator.join, List.all_map]
  rfl

theorem holdsIn?_map (context : Members) (r : Rule) :
    r.holdsIn? (.map context) = some (r.holds context) := by
  rw [holdsIn?, holds, Condition.allHoldIn?_map]
  cases r.enabled.isFalsy <;> rfl

theorem executeIn?_map (context : Members) (r : Rule) :
    r.executeIn? (.map context) = some (r.execute context) := by
  rw [executeIn?, holdsIn?_map]
  rfl

end Rule

theorem Engine.evaluateIn?_map (context : Members) (e : Engine) :
    e.evaluateIn? (.map context) = some (e.evaluate context) := by
  have hmap : e.rules.mapM (fun r => do return (r, ← r.executeIn? (.map context))) =
      some (e.rules.map fun r => (r, r.execute context)) := by
    induction e.rules with
    | nil => rfl
    | cons r rs ih =>
        rw [List.mapM_cons, Rule.executeIn?_map, ih]
        rfl
  rw [evaluateIn?, hmap, evaluate]
  simp only [Option.bind_eq_bind, Option.bind_some, List.filterMap_map]
  rfl

theorem Rule.match?_regrouped {r : Rule} {ds : List Condition}
    (h : Condition.Regroups .all r.conditions ds) (context : Members) :
    ({ r with conditions := ds } : Rule).match? context = r.match? context := by
  have hholds : ({ r with conditions := ds } : Rule).holds context = r.holds context := by
    rw [holds_eq_join, holds_eq_join, h.join_eq context]
  rw [match?, match?, execute, execute, hholds]

theorem Rule.holds_mono {a b : Members} {r : Rule}
    (h : ∀ l ∈ Condition.listLeaves r.conditions, l.holds a = true → l.holds b = true)
    (hholds : r.holds a = true) : r.holds b = true := by
  rw [holds, Bool.and_eq_true] at hholds ⊢
  exact hholds.imp_right (Condition.allHold_mono r.conditions h)

/-- Evaluation gives an answer wherever the stack has room for its calls, and on no other. A leaf
holds if its field is found and both texts are there and related, so a text that an integer is too
long for only makes its leaf false; every condition, rule and set of rules comes to what all its
leaves, each looked at, are joined to. So regrouping changes no answer, and what holds keeps holding
where leaves only turn from false to true. -/
theorem evaluates_where_room (context : Members) (room : Nat) :
    (∀ v : Value,
      v.looseWithin room = (if room < v.looseCalls then .error .tooDeep else .ok v.loose?) ∧
      (v.loose? = none ↔ v.Unwritable)) ∧
    (∀ l : Leaf, l.holds context = true ↔
      ∃ name v t u, l.field = .text name ∧ lookup? context name = some v ∧ v.loose? = some t ∧
        l.operand.loose? = some u ∧ l.operator.relates t u = true) ∧
    (∀ c : Condition,
      c.holdsWithin context room =
        (if room < c.calls context then .error .tooDeep else .ok (c.holds context)) ∧
      c.strictIn? (.map context) = some (c.holds context) ∧
      c.calls context ≤ c.nesting + (Value.map context).depth + 4) ∧
    (∀ r : Rule,
      r.holdsWithin context room =
        (if room < r.calls context then .error .tooDeep else .ok (r.holds context)) ∧
      r.executeWithin context room =
        (if room < r.calls context + 1 then .error .tooDeep else .ok (r.execute context)) ∧
      r.holds context =
        (!r.enabled.isFalsy && Operator.all.join (r.conditions.map (Condition.holds context)))) ∧
    (∀ e : Engine, e.evaluateWithin context room =
      if room < e.calls context then .error .tooDeep else .ok (e.evaluate context)) ∧
    (∀ {op cs ds}, Condition.Regroups op cs ds → ∀ id kind field,
      (Condition.group op cs id kind field).holds context =
        (Condition.group op ds id kind field).holds context) ∧
    (∀ (r : Rule) {ds}, Condition.Regroups .all r.conditions ds →
      ({ r with conditions := ds } : Rule).match? context = r.match? context) ∧
    (∀ (later : Members) (c : Condition),
      (∀ l ∈ c.leaves, l.holds context = true → l.holds later = true) →
      c.holds context = true → c.holds later = true) ∧
    ∀ (later : Members) (r : Rule),
      (∀ l ∈ Condition.listLeaves r.conditions, l.holds context = true → l.holds later = true) →
      r.holds context = true → r.holds later = true := by
  refine ⟨fun v => ?_, Leaf.holds_iff context, fun c => ?_, fun r => ?_, fun e => ?_,
    fun h id kind field => ?_, fun r ds h => Rule.match?_regrouped h context,
    fun later => Condition.holds_mono, fun later r => Rule.holds_mono⟩
  · rw [Value.looseWithin_eq]
    exact ⟨rfl, v.loose?_eq_none_iff⟩
  · rw [Condition.holdsWithin_eq]
    exact ⟨rfl, Condition.strictIn?_map c, Condition.calls_le context c⟩
  · rw [Rule.holdsWithin_eq, Rule.executeWithin_eq]
    exact ⟨rfl, rfl, r.holds_eq_join context⟩
  · rw [Engine.evaluateWithin_eq]
    rfl
  · rw [Condition.holds_group, Condition.holds_group, h.join_eq context]

/-- Groups 220 deep around a leaf that meets lists 441 deep. -/
theorem evaluation_overflows :
    let context : Members := [("a", .listTower 440)]
    let node := Condition.towerValue
      (.map [("field", .text "a"), ("operator", .text "equals"), ("value", .text "x")]) 220
    ∃ c, Condition.ofValue node = .ok c ∧ c.holdsWithin context 1000 = .error .tooDeep := by
  intro context node
  have hleaf : Condition.ofValue (.map [("field", .text "a"), ("operator", .text "equals"),
      ("value", .text "x")]) = .ok (.leaf (.text "a") .equals (.text "x") .null defaultKind) := rfl
  have hfound : lookup? context "a" = some (.listTower 440) := rfl
  have hloose := Nat.le_max_left (Value.listTower 440).looseCalls
    (if (Value.listTower 440).loose?.isSome then (Value.text "x").looseCalls else 0)
  rw [Value.looseCalls_listTower] at hloose
  refine ⟨_, Condition.ofValue_towerValue hleaf 220, ?_⟩
  rw [Condition.holdsWithin_eq, Stacked.taking_eq_error_iff, Condition.calls_tower, Condition.calls,
    leafCalls, hfound, Option.elim_some, Operator.calls, Operator.bothCalls,
    Value.looseCalls_listTower]
  omega

/-- A group around a group, one of whose leaves meets a list with an integer that has no text. -/
theorem evaluates_where_room_unwritable :
    let unread := Condition.leaf (.text "ids") .notEquals (.text "none") .null .null
    let known := Condition.leaf (.text "kind") .equals (.text "signup") .null .null
    let nested := [Condition.group .any [unread, known] .null .null .null]
    let flat := [known, known, unread]
    let ids := Value.list [.text "a", .int (Nat.pow 10 digitLimit)]
    let context : Members := [("ids", ids), ("kind", .text "signup")]
    let later : Members := [("ids", .list []), ("kind", .text "signup")]
    ids.Unwritable ∧ unread.holds context = false ∧ unread.holds later = true ∧
      Condition.Regroups .any nested flat ∧
      (Condition.group .any nested .null .null .null).holdsWithin context 20 = .ok true ∧
      (Condition.group .any flat .null .null .null).holds context = true ∧
      (Condition.group .any flat .null .null .null).holds later = true := by
  intro unread known nested flat ids context later
  obtain ⟨htext, hleaf, hwithin, -, -, hregrouped, -, hmono, -⟩ :=
    evaluates_where_room context 20
  have hids : ids.Unwritable := .elem (.tail _ (.head _)) (.int (by decide +kernel))
  have hunread : unread.holds context = false := by
    rw [Bool.eq_false_iff]
    intro hholds
    obtain ⟨name, v, t, u, hname, hv, ht, -⟩ := (hleaf ⟨_, _, _⟩).1 hholds
    cases hname
    cases hv
    exact nomatch ht.symm.trans ((htext ids).2.2 hids)
  have hknown : known.holds context = true := by decide +kernel
  have hflattened : Condition.Regroups .any nested [unread, known] :=
    @Condition.Regroups.flatten .any [] [unread, known] [] .null .null .null
  have hregroups : Condition.Regroups .any nested flat :=
    .trans hflattened (.trans (.reorder (.swap _ _ _)) (.duplicate List.mem_cons_self))
  have hnested : (Condition.group .any nested .null .null .null).holds context = true := by
    rw [Condition.holds, Condition.anyHolds_eq_any]
    simp [nested, Condition.holds, Condition.anyHolds, hknown]
  have hflat := (hregrouped hregroups .null .null .null).symm.trans hnested
  have hlater : (Condition.group .any flat .null .null .null).holds later = true := by
    refine hmono later _ (fun l hl => ?_) hflat
    intro hholds
    simp only [Condition.leaves, Condition.listLeaves, flat, known, unread, List.mem_append,
      List.mem_singleton, List.not_mem_nil, or_false] at hl
    rcases hl with rfl | rfl | rfl <;> decide +kernel
  have hanswered :
      (Condition.group .any nested .null .null .null).holdsWithin context 20 = .ok true := by
    obtain ⟨hanswer, -, hcalls⟩ := hwithin (.group .any nested .null .null .null)
    have hroom : (Condition.group .any nested .null .null .null).nesting +
        (Value.map context).depth + 4 ≤ 20 := by decide +kernel
    rw [hanswer, if_neg (Nat.not_lt.2 (Nat.le_trans hcalls hroom)), hnested]
  exact ⟨hids, hunread, by decide +kernel, hregroups, hanswered, hflat, hlater⟩

end Referral
