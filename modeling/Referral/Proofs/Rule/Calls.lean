import Referral.Proofs.Stack
import Referral.Rule.Within
import Referral.Schema.FreeForm

namespace Referral

open Stacked

namespace Value

def looseDoubleCalls (v : Value) : Nat := v.looseCalls + 1

theorem looseDoubleWithin_eq (v : Value) :
    v.looseDoubleWithin = taking v.looseDoubleCalls v.looseDouble? := by
  rw [looseDoubleWithin, looseWithin_eq, bind_pure_taking, nest_taking]
  rfl

end Value

namespace Operator

/-- The calls for two values, of which the second is looked at only if the first has a text. -/
def bothCalls (calls : Value → Nat) (v w : Value) : Nat :=
  max (calls v) (if v.loose?.isSome then calls w else 0)

def calls (op : Operator) (field operand : Value) : Nat :=
  match op with
  | equals | notEquals => bothCalls Value.looseCalls field operand + 1
  | greaterThan | lessThan => bothCalls Value.looseDoubleCalls field operand + 1
  | contains => bothCalls Value.looseCalls operand field + 1
  | _ => 1

theorem holdsWithin_eq (op : Operator) (field operand : Value) :
    op.holdsWithin field operand = taking (op.calls field operand) (op.holds? field operand) := by
  have hsome (v : Value) : v.looseDouble?.isSome = v.loose?.isSome := Option.isSome_map
  cases op with
  | equals | notEquals =>
      rw [holdsWithin, Value.looseWithin_eq, Value.looseWithin_eq, both_taking, nest_taking]
      rfl
  | greaterThan =>
      rw [holdsWithin, Value.looseDoubleWithin_eq, Value.looseDoubleWithin_eq, both_taking,
        nest_taking, hsome, calls, bothCalls, holds?]
      cases field.looseDouble? <;> cases operand.looseDouble? <;> rfl
  | lessThan =>
      rw [holdsWithin, Value.looseDoubleWithin_eq, Value.looseDoubleWithin_eq, both_taking,
        nest_taking, hsome]
      rfl
  | contains =>
      rw [holdsWithin, Value.looseWithin_eq, Value.looseWithin_eq, both_taking, nest_taking]
      rfl
  | all | any | other given => exact nest_pure 1 _

end Operator

def leafCalls (field : Value) (operator : Operator) (operand : Value) (context : Members) : Nat :=
  match field with
  | .text name => ((lookup? context name).elim 0 (operator.calls · operand)) + 1
  | _ => 1

theorem leafHoldsWithin_eq (field : Value) (operator : Operator) (operand : Value)
    (context : Members) : leafHoldsWithin field operator operand context =
      taking (leafCalls field operator operand context)
        (leafHolds field operator operand context) := by
  cases field with
  | text name =>
      rw [leafHoldsWithin, leafCalls, leafHolds]
      cases lookup? context name with
      | none => exact nest_pure 1 _
      | some v =>
          dsimp only
          rw [Operator.holdsWithin_eq, bind_pure_taking, nest_taking]
          rfl
  | null | bool b | int n | double x | list elems | map members => exact nest_pure 1 _

namespace Condition

mutual

/-- How many calls one inside another the evaluation makes, up to where the result is known. -/
def calls (context : Members) : Condition → Nat
  | leaf field operator operand _ _ => leafCalls field operator operand context
  | group .all children _ _ _ => allCalls context children + 3
  | group .any children _ _ _ => anyCalls context children + 3
  | group _ _ _ _ _ => 1

def allCalls (context : Members) : List Condition → Nat
  | [] => 0
  | c :: cs => max (calls context c) (if c.holds context then allCalls context cs else 0)

def anyCalls (context : Members) : List Condition → Nat
  | [] => 0
  | c :: cs => max (calls context c) (if c.holds context then 0 else anyCalls context cs)

end

variable (context : Members)

mutual

theorem holdsWithin_eq : ∀ c : Condition,
    c.holdsWithin context = taking (c.calls context) (c.holds context)
  | leaf .. => leafHoldsWithin_eq ..
  | group .all children .. => by
      rw [holdsWithin, allHoldWithin_eq children, nest_taking, calls, holds]
  | group .any children .. => by
      rw [holdsWithin, anyHoldsWithin_eq children, nest_taking, calls, holds]
  | group .equals .. | group .notEquals .. | group .greaterThan .. | group .lessThan ..
  | group .contains .. | group (.other _) .. => nest_pure 1 _

theorem allHoldWithin_eq : ∀ cs : List Condition,
    allHoldWithin context cs = taking (allCalls context cs) (allHold context cs)
  | [] => rfl
  | c :: cs => by
      rw [allHoldWithin, holdsWithin_eq c, allHoldWithin_eq cs, allCalls, allHold]
      apply bind_taking
      cases c.holds context <;> rfl

theorem anyHoldsWithin_eq : ∀ cs : List Condition,
    anyHoldsWithin context cs = taking (anyCalls context cs) (anyHolds context cs)
  | [] => rfl
  | c :: cs => by
      rw [anyHoldsWithin, holdsWithin_eq c, anyHoldsWithin_eq cs, anyCalls, anyHolds]
      apply bind_taking
      cases c.holds context <;> rfl

end

end Condition

namespace Rule

variable (context : Members) (r : Rule)

def calls : Nat :=
  if r.enabled.isFalsy then 1 else Condition.allCalls context r.conditions + 3

theorem holdsWithin_eq : r.holdsWithin context = taking (r.calls context) (r.holds context) := by
  rw [holdsWithin, calls, holds]
  cases r.enabled.isFalsy with
  | true => exact nest_pure 1 _
  | false =>
      rw [Condition.allHoldWithin_eq, nest_taking]
      exact nest_taking 1

theorem executeWithin_eq :
    r.executeWithin context = taking (r.calls context + 1) (r.execute context) := by
  rw [executeWithin, holdsWithin_eq, bind_pure_taking, nest_taking]
  rfl

theorem matchWithin_eq :
    r.matchWithin context = taking (r.calls context + 1) (r.match? context) := by
  rw [matchWithin, executeWithin_eq, bind_pure_taking]
  rfl

end Rule

namespace Engine

def calls (e : Engine) (context : Members) : Nat :=
  (e.rules.map fun r => r.calls context + 1).foldr max 0 + 1

theorem evaluateWithin_eq (e : Engine) (context : Members) :
    e.evaluateWithin context = taking (e.calls context) (e.evaluate context) := by
  have hmatches (rules : List Rule) : rules.mapM (Rule.matchWithin context) =
      taking ((rules.map fun r => r.calls context + 1).foldr max 0)
        (rules.map (Rule.match? context)) := by
    induction rules with
    | nil => rfl
    | cons r rules ih =>
        rw [List.mapM_cons, Rule.matchWithin_eq, ih]
        exact bind_taking (bind_pure_taking _)
  rw [evaluateWithin, hmatches, bind_pure_taking, nest_taking, calls, evaluate,
    List.filterMap_map]
  rfl

end Engine

namespace RuleStore

/-- The calls that a copy of any stored rule takes at most. -/
def copyCalls (s : RuleStore) : Nat := (s.list.map Rule.copySteps).foldr max 0

theorem listWithin_eq (s : RuleStore) (room : Nat) :
    s.listWithin room = if room < s.copyCalls then .error .tooDeep else .ok s.list := by
  rw [listWithin, copyCalls]
  induction s.list with
  | nil => rfl
  | cons r rules ih =>
      rw [List.mapM_cons, ih, List.map_cons, List.foldr_cons, ite_lt_max]
      split
      · rfl
      · split <;> rfl

end RuleStore

namespace Value

mutual

theorem nestedCalls_le : ∀ v : Value, v.nestedCalls ≤ v.depth
  | null | bool _ | int _ | double _ | text _ => Nat.le_refl 1
  | list elems => Nat.succ_le_succ (elemsCalls_le elems)
  | map members => Nat.succ_le_succ (membersCalls_le members)

theorem elemsCalls_le : ∀ elems : List Value, elemsCalls elems ≤ elemsDepth elems
  | [] => Nat.le_refl 0
  | v :: rest => by
      rw [elemsCalls, elemsDepth]
      have hv := nestedCalls_le v
      have hrest := elemsCalls_le rest
      split <;> omega

theorem membersCalls_le : ∀ members : List (Text × Value),
    membersCalls members ≤ membersDepth members
  | [] => Nat.le_refl 0
  | (key, v) :: rest => by
      rw [membersCalls, membersDepth]
      have hv := nestedCalls_le v
      have hrest := membersCalls_le rest
      split <;> omega

end

theorem looseCalls_le (v : Value) : v.looseCalls ≤ v.depth + 1 := by
  cases v with
  | null | bool b | int n | text t => exact Nat.le_of_ble_eq_true rfl
  | double x => cases x <;> exact Nat.le_of_ble_eq_true rfl
  | list elems => exact Nat.succ_le_succ (nestedCalls_le (list elems))
  | map members => exact Nat.succ_le_succ (nestedCalls_le (map members))

end Value

theorem depth_lookup {members : Members} {name : Text} {v : Value}
    (h : members.lookup name = some v) : v.depth ≤ Value.membersDepth members := by
  induction members with
  | nil => cases h
  | cons row members ih =>
      obtain ⟨key, w⟩ := row
      rw [List.lookup_cons] at h
      rw [Value.membersDepth]
      split at h
      · cases h
        exact Nat.le_max_left _ _
      · exact Nat.le_trans (ih h) (Nat.le_max_right _ _)

theorem depth_walk? {path : List (List Symbol)} {v w : Value} (h : walk? path v = some w) :
    w.depth ≤ v.depth := by
  induction path generalizing v with
  | nil =>
      cases h
      exact Nat.le_refl _
  | cons part path ih =>
      cases v with
      | map members =>
          obtain ⟨u, hu, hw⟩ := Option.bind_eq_some_iff.1 h
          have hmember := depth_lookup hu
          have hdeeper := ih hw
          rw [Value.depth]
          omega
      | null | bool b | int n | double x | text t | list elems => cases h

theorem depth_lookup? {context : Members} {name : Text} {v : Value}
    (h : lookup? context name = some v) : v.depth ≤ (Value.map context).depth := by
  rw [lookup?] at h
  split at h
  next found =>
    cases h
    exact Nat.le_succ_of_le (depth_lookup found)
  next =>
    split at h
    · exact depth_walk? h
    · cases h

theorem Operator.calls_le (op : Operator) (field operand : Value) :
    op.calls field operand ≤ max field.depth operand.depth + 3 := by
  have hfield := field.looseCalls_le
  have hoperand := operand.looseCalls_le
  cases op with
  | equals | notEquals | greaterThan | lessThan | contains =>
      simp only [calls, bothCalls, Value.looseDoubleCalls]
      split <;> omega
  | all | any | other given =>
      rw [calls] <;> simp

theorem leafCalls_le (field : Value) (operator : Operator) (operand : Value) (context : Members) :
    leafCalls field operator operand context ≤ operand.depth + (Value.map context).depth + 4 := by
  cases field with
  | text name =>
      rw [leafCalls]
      cases hfound : lookup? context name with
      | none => simp
      | some v =>
          have hcalls := operator.calls_le v operand
          have hdepth := depth_lookup? hfound
          rw [Option.elim_some]
          omega
  | null | bool b | int n | double x | list elems | map members =>
      rw [leafCalls]
      · omega
      · simp

namespace Condition

mutual

/-- A bound on the calls for the groups and the operands. -/
def nesting : Condition → Nat
  | leaf _ _ operand _ _ => operand.depth
  | group _ children _ _ _ => listNesting children + 3

def listNesting : List Condition → Nat
  | [] => 0
  | c :: cs => max (nesting c) (listNesting cs)

end

variable (context : Members)

mutual

theorem calls_le : ∀ c : Condition, c.calls context ≤ c.nesting + (Value.map context).depth + 4
  | leaf field operator operand _ _ => leafCalls_le field operator operand context
  | group .all children _ _ _ => by
      have hchildren := allCalls_le children
      rw [calls, nesting]
      omega
  | group .any children _ _ _ => by
      have hchildren := anyCalls_le children
      rw [calls, nesting]
      omega
  | group .equals .. | group .notEquals .. | group .greaterThan .. | group .lessThan ..
  | group .contains .. | group (.other _) .. => by
      rw [calls] <;> simp

theorem allCalls_le : ∀ cs : List Condition,
    allCalls context cs ≤ listNesting cs + (Value.map context).depth + 4
  | [] => Nat.zero_le _
  | c :: cs => by
      have hfirst := calls_le c
      have hrest := allCalls_le cs
      rw [allCalls, listNesting]
      split <;> omega

theorem anyCalls_le : ∀ cs : List Condition,
    anyCalls context cs ≤ listNesting cs + (Value.map context).depth + 4
  | [] => Nat.zero_le _
  | c :: cs => by
      have hfirst := calls_le c
      have hrest := anyCalls_le cs
      rw [anyCalls, listNesting]
      split <;> omega

end

def tower (c : Condition) : Nat → Condition
  | 0 => c
  | n + 1 => group .all [tower c n] .null defaultKind .null

theorem calls_tower (c : Condition) (n : Nat) :
    (tower c n).calls context = c.calls context + 3 * n := by
  induction n with
  | zero => rfl
  | succ n ih =>
      rw [tower, calls, allCalls, allCalls, ite_self, Nat.max_zero, ih]
      omega

def towerValue (v : Value) : Nat → Value
  | 0 => v
  | n + 1 => .map [("operator", .text "and"), ("children", .list [towerValue v n])]

theorem ofValue_towerValue {v : Value} {c : Condition} (h : ofValue v = .ok c) (n : Nat) :
    ofValue (towerValue v n) = .ok (tower c n) := by
  induction n with
  | zero => exact h
  | succ n ih =>
      have hchildren : childrenOf
          [("operator", .text "and"), ("children", .list [towerValue v n])] =
            .ok [tower c n] := by
        rw [childrenOf, if_neg (by decide), childrenOf, if_pos rfl, listOf, ofList, ih]
        rfl
      rw [towerValue, tower, ofValue, hchildren]
      rfl

end Condition

def Value.listTower : Nat → Value
  | 0 => .list []
  | n + 1 => .list [listTower n]

theorem Value.nestedCalls_listTower (n : Nat) : (listTower n).nestedCalls = n + 1 := by
  induction n with
  | zero => rfl
  | succ n ih => rw [listTower, nestedCalls, elemsCalls, elemsCalls, ite_self, Nat.max_zero, ih]

theorem Value.looseCalls_listTower (n : Nat) : (listTower n).looseCalls = n + 2 := by
  have hnested : (listTower n).looseCalls = (listTower n).nestedCalls + 1 := by cases n <;> rfl
  rw [hnested, nestedCalls_listTower]

end Referral
