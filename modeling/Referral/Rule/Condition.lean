import Referral.Rule.Shape
import Referral.Text.NumericHead

namespace Referral

inductive Operator where
  | equals
  | notEquals
  | greaterThan
  | lessThan
  | contains
  | all
  | any
  | other (given : Value)
  deriving Inhabited

namespace Operator

def named : List (String × Operator) :=
  [("equals", equals), ("not_equals", notEquals), ("greater_than", greaterThan),
   ("less_than", lessThan), ("contains", contains), ("and", all), ("or", any)]

def ofName? (name : String) : Option Operator := named.lookup name

def ofValue : Value → Operator
  | .text t => ((t.string?).bind ofName?).getD (other (.text t))
  | v => other v

def toValue : Operator → Value
  | equals => .text "equals"
  | notEquals => .text "not_equals"
  | greaterThan => .text "greater_than"
  | lessThan => .text "less_than"
  | contains => .text "contains"
  | all => .text "and"
  | any => .text "or"
  | other given => given

def isLogical : Operator → Bool
  | all | any => true
  | _ => false

end Operator

def occursIn (s : List Symbol) : List Symbol → Bool
  | [] => s.isEmpty
  | c :: t => s.isPrefixOf (c :: t) || occursIn s t

/-- Whether a field's value stands in the operator's relation to an operand; absent when one of the
two has no loose text. -/
def Operator.holds? (op : Operator) (field operand : Value) : Option Bool :=
  match op with
  | equals => do return (← field.loose?) = (← operand.loose?)
  | notEquals => do return (← field.loose?) ≠ (← operand.loose?)
  | greaterThan => do return (← operand.looseDouble?).lt (← field.looseDouble?)
  | lessThan => do return (← field.looseDouble?).lt (← operand.looseDouble?)
  | contains => do return occursIn (← operand.loose?).symbols (← field.loose?).symbols
  | _ => some false

def segments : List Symbol → List (List Symbol)
  | [] => [[]]
  | c :: rest =>
    if c = .char '.' then [] :: segments rest
    else
      match segments rest with
      | [] => [[c]]
      | s :: more => (c :: s) :: more

def walk? : List (List Symbol) → Value → Option Value
  | [], v => some v
  | part :: parts, .map members => (members.lookup (Text.ofSymbols part)).bind (walk? parts)
  | _ :: _, _ => none

/-- The value of a field: under its exact name, else along its dotted path. -/
def lookup? (context : Members) (field : Text) : Option Value :=
  match context.lookup field with
  | some v => some v
  | none =>
    if field.symbols.contains (.char '.') then walk? (segments field.symbols) (.map context)
    else none

inductive Condition where
  | leaf (field : Value) (operator : Operator) (operand id kind : Value)
  | group (operator : Operator) (children : List Condition) (id kind field : Value)
  deriving Inhabited

def defaultKind : Value := .text "custom"

/-- Whether a leaf holds. It does not when its field is no text or not there, or when there is
nothing to compare because a text is too long. -/
def leafHolds (field : Value) (operator : Operator) (operand : Value) (context : Members) : Bool :=
  match field with
  | .text name =>
    match lookup? context name with
    | some v => (operator.holds? v operand).getD false
    | none => false
  | _ => false

namespace Condition

mutual

/-- Whether the condition holds, on a stack with room for its groups. -/
def holds (context : Members) : Condition → Bool
  | leaf field operator operand _ _ => leafHolds field operator operand context
  | group .all children _ _ _ => allHold context children
  | group .any children _ _ _ => anyHolds context children
  | group _ _ _ _ _ => false

def allHold (context : Members) : List Condition → Bool
  | [] => true
  | c :: cs => holds context c && allHold context cs

def anyHolds (context : Members) : List Condition → Bool
  | [] => false
  | c :: cs => holds context c || anyHolds context cs

end

mutual

def toValue : Condition → Value
  | leaf field operator operand id kind =>
    .map [("id", id), ("type", kind), ("field", field), ("operator", operator.toValue),
      ("value", operand), ("children", .list [])]
  | group operator children id kind field =>
    .map [("id", id), ("type", kind), ("field", field), ("operator", operator.toValue),
      ("value", .null), ("children", .list (listToValue children))]

def listToValue : List Condition → List Value
  | [] => []
  | c :: cs => toValue c :: listToValue cs

end

mutual

/-- The condition of a wire document. Only `and` and `or` make a group, and only a group looks at
its children. -/
def ofValue : Value → Except ShapeFault Condition
  | .map members =>
    let operator := Operator.ofValue (Members.get members "operator")
    let kind := (Members.get members "type").orElse defaultKind
    let id := Members.get members "id"
    let field := Members.get members "field"
    if operator.isLogical then do
      return group operator (← childrenOf members) id kind field
    else return leaf field operator (Members.get members "value") id kind
  | _ => throw .notMapping

def childrenOf : List (Text × Value) → Except ShapeFault (List Condition)
  | [] => return []
  | (key, v) :: rest => if key = "children" then listOf v else childrenOf rest

/-- The conditions of a list. What stands for nothing has none; a text or a mapping is listed too,
but what it holds is never a condition. -/
def listOf : Value → Except ShapeFault (List Condition)
  | .list elems => ofList elems
  | v =>
    if v.isFalsy then return []
    else
      match v with
      | .text _ | .map _ => throw .notMapping
      | _ => throw .unlistable

def ofList : List Value → Except ShapeFault (List Condition)
  | [] => return []
  | v :: vs => do
    let c ← ofValue v
    let cs ← ofList vs
    return c :: cs

end

end Condition

end Referral
