import Referral.Rule.Key
import Referral.Rule.Shape
import Referral.Text.Plain

namespace Referral

inductive ActionKind where
  | reward
  | notification
  | other (given : Value)

namespace ActionKind

def ofValue : Value → ActionKind
  | .text ⟨"reward", []⟩ => reward
  | .text ⟨"notification", []⟩ => notification
  | v => other v

def toValue : ActionKind → Value
  | reward => .text "reward"
  | notification => .text "notification"
  | other given => given

end ActionKind

/-- Parameters in order of arrival. A mapping gives texts as keys, a list of pairs may give others.
-/
abbrev Params := List (Value × Value)

structure Action where
  kind : ActionKind
  params : Params
  id : Value

/-- Parameters as they stand in a mapping: under keys of any kind, or as a value of a document. -/
inductive GivenParams where
  | keyed (params : Params)
  | value (v : Value)

structure ActionMapping where
  id : Value
  kind : Value
  params : GivenParams

inductive Outcome where
  | reward (amount currency description : Value)
  | notification (message : Value)
  | passthrough (kind : Value) (params : Params)

def defaultCurrency : String := "USD"

def defaultDescription : String := "Referral reward"

def defaultMessage : String := "Notification sent"

namespace Params

def ofMembers (members : Members) : Params := members.map fun (key, v) => (.text key, v)

def get (params : Params) (name : Text) : Value :=
  (params.findSome? fun (given, v) =>
    match given with
    | .text t => if t = name then some v else none
    | _ => none).getD .null

def sameKey (a b : Value) : Bool :=
  match Key.of? a with
  | none | some (.double .nan) => false
  | key => key = Key.of? b

/-- Sets a parameter; one that is there keeps its key as it was first given. -/
def set (given v : Value) : Params → Params
  | [] => [(given, v)]
  | p :: ps => if sameKey p.1 given then (p.1, v) :: ps else p :: set given v ps

def keyText : Value → Text
  | .null => "null"
  | .bool b => if b then "true" else "false"
  | .double .nan => "NaN"
  | .double (.infinity negative) => if negative then "-Infinity" else "Infinity"
  | .int n => decimalText n
  | .text t => t
  | v => v.plain?.getD ""

/-- The parameters as they are written: of keys with the same text the last one stands. -/
def toMembers (params : Params) : Members :=
  params.foldl (fun ms (given, v) => setRow (keyText given) v ms) []

def keysWritable (params : Params) : Bool :=
  params.all fun (given, _) =>
    match given with
    | .double x => x.isFinite
    | .int n => !tooLong n
    | _ => true

end Params

/-- An element of a parameter list as a key and a value. A list of two, a text of two characters and
a mapping of two members each make a pair. -/
def pairOf (v : Value) : Except ShapeFault (Value × Value) :=
  let parts : Option (List Value) :=
    match v with
    | .list elems => some elems
    | .text t => some (t.symbols.map fun c => .text (.ofSymbols [c]))
    | .map members => some (members.map fun m => .text m.1)
    | _ => none
  match parts with
  | none => throw .notPair
  | some [key, value] => if (Key.of? key).isSome then return (key, value) else throw .unfitKey
  | some _ => throw .pairLength

def paramsOf (v : Value) : Except ShapeFault Params :=
  if v.isFalsy then return []
  else
    match v with
    | .map members => return .ofMembers members
    | .list elems => return (← elems.mapM pairOf).foldl (fun ps (key, x) => Params.set key x ps) []
    | .text _ => throw .pairLength
    | _ => throw .unlistable

namespace GivenParams

def read : GivenParams → Except ShapeFault Params
  | keyed params => return params
  | value v => paramsOf v

def toValue : GivenParams → Value
  | keyed params => .map params.toMembers
  | value v => v

end GivenParams

namespace ActionMapping

def ofMembers (members : Members) : ActionMapping :=
  ⟨members.get "id", members.get "type", .value (members.get "params")⟩

def toValue (m : ActionMapping) : Value :=
  .map [("id", m.id), ("type", m.kind), ("params", m.params.toValue)]

end ActionMapping

namespace Action

def ofMapping (m : ActionMapping) : Except ShapeFault Action :=
  return ⟨.ofValue m.kind, ← m.params.read, m.id⟩

def ofValue : Value → Except ShapeFault Action
  | .map members => ofMapping (.ofMembers members)
  | _ => throw .notMapping

def toMapping (a : Action) : ActionMapping := ⟨a.id, a.kind.toValue, .keyed a.params⟩

def toValue (a : Action) : Value := a.toMapping.toValue

def execute (a : Action) : Outcome :=
  match a.kind with
  | .reward =>
    .reward ((a.params.get "amount").orElse (.int 0))
      ((a.params.get "currency").orElse (.text defaultCurrency))
      ((a.params.get "description").orElse (.text defaultDescription))
  | .notification => .notification ((a.params.get "message").orElse (.text defaultMessage))
  | .other kind => .passthrough kind a.params

end Action

def Outcome.toValue : Outcome → Value
  | reward amount currency description =>
    .map [("type", .text "reward"), ("amount", amount), ("currency", currency),
      ("description", description)]
  | notification message => .map [("type", .text "notification"), ("message", message)]
  | passthrough kind params => .map [("type", kind), ("params", .map params.toMembers)]

end Referral
