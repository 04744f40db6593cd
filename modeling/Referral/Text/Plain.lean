import Referral.Number.DoubleText
import Referral.Stack
import Referral.Text.Quoted
import Referral.Value

namespace Referral.Value

mutual

/-- The text as it stands inside a list or a mapping, on a stack with room to write it. -/
def nested? : Value → Option String
  | null => some "None"
  | bool b => some (if b then "True" else "False")
  | int n => decimalText? n
  | double x => some x.text
  | text t => some (Text.quoted t)
  | list elems => (nestedElems? elems).map fun ts => "[" ++ String.intercalate ", " ts ++ "]"
  | map members =>
    (nestedMembers? members).map fun ts => "\x7b" ++ String.intercalate ", " ts ++ "\x7d"

def nestedElems? : List Value → Option (List String)
  | [] => some []
  | v :: rest => do
    let t ← nested? v
    let ts ← nestedElems? rest
    return t :: ts

def nestedMembers? : List (Text × Value) → Option (List String)
  | [] => some []
  | (key, v) :: rest => do
    let t ← nested? v
    let ts ← nestedMembers? rest
    return (Text.quoted key ++ ": " ++ t) :: ts

end

def plain? : Value → Option Text
  | text t => some t
  | v => v.nested?.map fun s => s

/-- The text that conditions compare. It differs from the plain one on single values only, and like
it is absent where there is an integer that is too long. -/
def loose? : Value → Option Text
  | null => some "null"
  | bool b => some (if b then "true" else "false")
  | double .nan => some "NaN"
  | double (.infinity negative) => some (if negative then "-Infinity" else "Infinity")
  | double x =>
    match x.integer? with
    | some n => (decimalText? n).map fun s => s
    | none => some x.text
  | v => plain? v

open Stacked (nest both)

mutual

def nestedWithin : Value → Stacked (Option String)
  | list elems => nest 1 do
    return (← nestedElemsWithin elems).map fun ts => "[" ++ String.intercalate ", " ts ++ "]"
  | map members => nest 1 do
    return (← nestedMembersWithin members).map fun ts =>
      "\x7b" ++ String.intercalate ", " ts ++ "\x7d"
  | v => nest 1 (return v.nested?)

def nestedElemsWithin : List Value → Stacked (Option (List String))
  | [] => return some []
  | v :: rest => both (nestedWithin v) (nestedElemsWithin rest) fun t ts => t :: ts

def nestedMembersWithin : List (Text × Value) → Stacked (Option (List String))
  | [] => return some []
  | (key, v) :: rest =>
    both (nestedWithin v) (nestedMembersWithin rest) fun t ts =>
      (Text.quoted key ++ ": " ++ t) :: ts

end

def plainWithin : Value → Stacked (Option Text)
  | text t => return some t
  | v => do return (← v.nestedWithin).map fun s => s

def looseWithin (v : Value) : Stacked (Option Text) := nest 1 <|
  match v with
  | null | bool _ | double .nan | double (.infinity _) => return v.loose?
  | double _ => nest 1 (return v.loose?)
  | v => v.plainWithin

end Referral.Value
