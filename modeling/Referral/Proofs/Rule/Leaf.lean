import Referral.Proofs.Number.Whole
import Referral.Rule.AnyContext

namespace Referral

namespace Value

/-- The value is an integer that has no text, or one lies in it at whatever depth. -/
inductive Unwritable : Value → Prop
  | int {n : Int} (long : tooLong n = true) : Unwritable (.int n)
  | elem {v : Value} {elems : List Value} (mem : v ∈ elems) (unwritable : Unwritable v) :
      Unwritable (.list elems)
  | member {key : Text} {v : Value} {members : Members} (mem : (key, v) ∈ members)
      (unwritable : Unwritable v) : Unwritable (.map members)

theorem unwritable_list_iff {elems : List Value} :
    (list elems).Unwritable ↔ ∃ v ∈ elems, v.Unwritable := by
  constructor
  · rintro (_ | ⟨mem, unwritable⟩)
    exact ⟨_, mem, unwritable⟩
  · rintro ⟨v, hv, hunwritable⟩
    exact .elem hv hunwritable

theorem unwritable_map_iff {members : Members} :
    (map members).Unwritable ↔ ∃ row ∈ members, row.2.Unwritable := by
  constructor
  · rintro (_ | _ | ⟨mem, unwritable⟩)
    exact ⟨_, mem, unwritable⟩
  · rintro ⟨⟨key, v⟩, hrow, hunwritable⟩
    exact .member hrow hunwritable

theorem decimalText?_eq_none_iff (n : Int) : decimalText? n = none ↔ tooLong n = true := by
  rw [decimalText?]
  cases tooLong n <;> simp

theorem not_unwritable_of_single {v : Value} (hint : ∀ n, v ≠ int n)
    (hlist : ∀ elems, v ≠ list elems) (hmap : ∀ members, v ≠ map members) : ¬ v.Unwritable := by
  rintro (⟨_⟩ | ⟨_, _⟩ | ⟨_, _⟩)
  · exact hint _ rfl
  · exact hlist _ rfl
  · exact hmap _ rfl

mutual

theorem nested?_eq_none_iff : ∀ v : Value, v.nested? = none ↔ v.Unwritable
  | null | bool _ | double _ | text _ =>
      iff_of_false nofun (not_unwritable_of_single nofun nofun nofun)
  | int n => by
      rw [nested?, decimalText?_eq_none_iff]
      exact ⟨.int, fun h => by cases h with | int long => exact long⟩
  | list elems => by
      rw [nested?, Option.map_eq_none_iff, nestedElems?_eq_none_iff elems, unwritable_list_iff]
  | map members => by
      rw [nested?, Option.map_eq_none_iff, nestedMembers?_eq_none_iff members, unwritable_map_iff]

theorem nestedElems?_eq_none_iff : ∀ elems : List Value,
    nestedElems? elems = none ↔ ∃ v ∈ elems, v.Unwritable
  | [] => iff_of_false nofun (by simp)
  | v :: rest => by
      rw [List.exists_mem_cons_iff, ← nested?_eq_none_iff v, ← nestedElems?_eq_none_iff rest,
        nestedElems?]
      cases nested? v <;> cases nestedElems? rest <;> simp

theorem nestedMembers?_eq_none_iff : ∀ members : List (Text × Value),
    nestedMembers? members = none ↔ ∃ row ∈ members, row.2.Unwritable
  | [] => iff_of_false nofun (by simp)
  | (key, v) :: rest => by
      rw [List.exists_mem_cons_iff, ← nested?_eq_none_iff v, ← nestedMembers?_eq_none_iff rest,
        nestedMembers?]
      cases nested? v <;> cases nestedMembers? rest <;> simp

end

theorem plain?_eq_none_iff (v : Value) : v.plain? = none ↔ v.Unwritable := by
  rw [← nested?_eq_none_iff]
  cases v with
  | text t => simp [plain?, nested?]
  | null | bool b | int n | double x | list elems | map members =>
      rw [plain?]
      · cases nested? _ <;> simp
      · simp

theorem loose?_finite (negative : Bool) (rank : Fin Double.ranks) :
    (double (.finite negative rank)).loose? =
      some (((Double.finite negative rank).integer?.elim (Double.finite negative rank).text
        decimalText : String) : Text) := by
  rw [loose?]
  · cases h : (Double.finite negative rank).integer? with
    | none => rfl
    | some n => simp [decimalText?, Double.tooLong_of_integer? h]
  · simp
  · simp

theorem loose?_eq_none_iff (v : Value) : v.loose? = none ↔ v.Unwritable := by
  cases v with
  | null | bool b => exact iff_of_false (by simp [loose?]) (by rintro ⟨⟩)
  | double x =>
      refine iff_of_false ?_ (by rintro ⟨⟩)
      cases x with
      | nan | infinity negative => simp [loose?]
      | finite negative rank => simp [loose?_finite]
  | int n | text t | list elems | map members => rw [loose?, plain?_eq_none_iff] <;> simp

end Value

namespace Operator

/-- Whether the texts of a field and of an operand are in the relation that the operator names. One
that compares nothing has no texts in relation. -/
def relates (op : Operator) (field operand : Text) : Bool :=
  match op with
  | equals => field = operand
  | notEquals => field ≠ operand
  | greaterThan => operand.looseDouble.lt field.looseDouble
  | lessThan => field.looseDouble.lt operand.looseDouble
  | contains => occursIn operand.symbols field.symbols
  | _ => false

theorem holds?_eq_some_true_iff (op : Operator) (field operand : Value) :
    op.holds? field operand = some true ↔
      ∃ t u, field.loose? = some t ∧ operand.loose? = some u ∧ op.relates t u = true := by
  cases hfield : field.loose? <;> cases hoperand : operand.loose? <;> cases op <;>
    simp [holds?, relates, Value.looseDouble?, hfield, hoperand]

end Operator

structure Leaf where
  field : Value
  operator : Operator
  operand : Value

namespace Leaf

def holds (context : Members) (l : Leaf) : Bool :=
  leafHolds l.field l.operator l.operand context

def name? (l : Leaf) : Option Text :=
  match l.field with
  | .text name => some name
  | _ => none

theorem holds_iff (context : Members) (l : Leaf) :
    l.holds context = true ↔ ∃ name v t u, l.field = .text name ∧ lookup? context name = some v ∧
      v.loose? = some t ∧ l.operand.loose? = some u ∧ l.operator.relates t u = true := by
  obtain ⟨field, operator, operand⟩ := l
  cases field with
  | text name =>
      cases hfound : lookup? context name with
      | none => simp [holds, leafHolds, hfound]
      | some v =>
          have hholds : (operator.holds? v operand).getD false = true ↔
              operator.holds? v operand = some true := by
            cases operator.holds? v operand <;> simp
          simp [holds, leafHolds, hfound, hholds, Operator.holds?_eq_some_true_iff]
  | null | bool b | int n | double x | list elems | map members => simp [holds, leafHolds]

theorem holds_congr {a b : Members} {l : Leaf}
    (h : ∀ name, l.name? = some name → lookup? a name = lookup? b name) :
    l.holds a = l.holds b := by
  obtain ⟨field, operator, operand⟩ := l
  cases field with
  | text name => simp only [holds, leafHolds, h name rfl]
  | null | bool b | int n | double x | list elems | map members => rfl

end Leaf

namespace Condition

mutual

def leaves : Condition → List Leaf
  | leaf field operator operand _ _ => [⟨field, operator, operand⟩]
  | group _ children _ _ _ => listLeaves children

def listLeaves : List Condition → List Leaf
  | [] => []
  | c :: cs => leaves c ++ listLeaves cs

end

variable {a b : Members}

mutual

theorem holds_mono : ∀ c : Condition,
    (∀ l ∈ c.leaves, l.holds a = true → l.holds b = true) → c.holds a = true → c.holds b = true
  | leaf field operator operand _ _ => fun h =>
      h ⟨field, operator, operand⟩ (List.mem_singleton.2 rfl)
  | group .all children _ _ _ => allHold_mono children
  | group .any children _ _ _ => anyHolds_mono children
  | group .equals .. | group .notEquals .. | group .greaterThan .. | group .lessThan ..
  | group .contains .. | group (.other _) .. => fun _ => id

theorem allHold_mono : ∀ cs : List Condition,
    (∀ l ∈ listLeaves cs, l.holds a = true → l.holds b = true) →
      allHold a cs = true → allHold b cs = true
  | [] => fun _ => id
  | c :: cs => fun h hholds => by
      rw [allHold, Bool.and_eq_true] at hholds ⊢
      exact ⟨holds_mono c (fun l hl => h l (List.mem_append_left _ hl)) hholds.1,
        allHold_mono cs (fun l hl => h l (List.mem_append_right _ hl)) hholds.2⟩

theorem anyHolds_mono : ∀ cs : List Condition,
    (∀ l ∈ listLeaves cs, l.holds a = true → l.holds b = true) →
      anyHolds a cs = true → anyHolds b cs = true
  | [] => fun _ => id
  | c :: cs => fun h hholds => by
      rw [anyHolds, Bool.or_eq_true] at hholds ⊢
      exact hholds.imp (holds_mono c fun l hl => h l (List.mem_append_left _ hl))
        (anyHolds_mono cs fun l hl => h l (List.mem_append_right _ hl))

end

theorem allHold_eq_of_leaves {cs : List Condition}
    (h : ∀ l ∈ listLeaves cs, l.holds a = l.holds b) : allHold a cs = allHold b cs :=
  Bool.eq_iff_iff.2
    ⟨allHold_mono cs fun l hl hholds => h l hl ▸ hholds,
      allHold_mono cs fun l hl hholds => (h l hl).symm ▸ hholds⟩

end Condition

end Referral
