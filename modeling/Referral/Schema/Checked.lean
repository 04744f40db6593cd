import Referral.Schema.Fault
import Referral.Value

namespace Referral.Schema

abbrev Checked (α : Type) := Except (List Fault) α

namespace Checked

variable {α β : Type}

def fail (reason : Reason) : Checked α := .error [⟨[], reason⟩]

def within (step : Step) (x : Checked α) : Checked α :=
  x.mapError fun faults => faults.map fun f => { f with loc := step :: f.loc }

/-- Applies a checked function, with the faults of both sides. -/
def app (f : Checked (α → β)) (x : Checked α) : Checked β :=
  match f, x with
  | .ok f, .ok a => .ok (f a)
  | .ok _, .error faults => .error faults
  | .error faults, .ok _ => .error faults
  | .error faults, .error more => .error (faults ++ more)

def elems (read : Value → Checked α) : Nat → List Value → Checked (List α)
  | _, [] => .ok []
  | i, v :: vs =>
    app (app (.ok List.cons) (within (.index i) (read v))) (elems read (i + 1) vs)

end Checked

def camelCase (name : String) : String :=
  let rec go : List Char → List Char
    | '_' :: c :: rest => c.toUpper :: go rest
    | c :: rest => c :: go rest
    | [] => []
  String.ofList (go name.toList)

/-- A member in camel case, or else with underscores, under the name that was found. -/
def find? (members : Members) (name : String) : Option (String × Value) :=
  match members.value? (camelCase name) with
  | some v => some (camelCase name, v)
  | none => (members.value? name).map (name, ·)

variable {α : Type}

def required (members : Members) (name : String) (read : Value → Checked α) : Checked α :=
  match find? members name with
  | some (spelling, v) => (read v).within (.key spelling)
  | none => (Checked.fail .missing).within (.key (camelCase name))

def optional (members : Members) (name : String) (default : α) (read : Value → Checked α) :
    Checked α :=
  match find? members name with
  | some (spelling, v) => (read v).within (.key spelling)
  | none => .ok default

def string (t : Text) : Checked String := t.string?.elim (.fail .brokenText) .ok

def text : Value → Checked String
  | .text t => string t
  | _ => .fail .notText

def filledText (v : Value) : Checked String := do
  let s ← text v
  if s.isEmpty then .fail .emptyText else return s

def textOrNull : Value → Checked (Option String)
  | .null => .ok none
  | v => (text v).map some

def any (v : Value) : Checked Value := .ok v

/-- A key in a report of faults, with three replacement characters for every lone surrogate. -/
def shownKey (key : Text) : String :=
  key.tail.foldl (fun s row => s ++ "\ufffd\ufffd\ufffd" ++ row.2) key.head

def keyFaults (members : Members) : List Fault :=
  members.filterMap fun (key, _) =>
    if key.string?.isSome then none else some ⟨[.key (shownKey key), .key "[key]"], .brokenText⟩

def mapping : Value → Checked Members
  | .map members =>
    match keyFaults members with
    | [] => .ok members
    | faults => .error faults
  | _ => .fail .notMapping

def listOf (read : Value → Checked α) : Value → Checked (List α)
  | .list elems => Checked.elems read 0 elems
  | _ => .fail .notList

def document (name : String) : Value → Checked Members
  | .map members => .ok members
  | _ => .fail (.notDocument name)

def trueWords : List String := ["1", "true", "t", "yes", "y", "on"]

def falseWords : List String := ["0", "false", "f", "no", "n", "off"]

/-- Zero and one are booleans, other integers of less than 64 bits unclear ones. -/
def numberBool (n : Int) : Checked Bool :=
  if n = 0 then .ok false
  else if n = 1 then .ok true
  else if -(Nat.pow 2 63 : Int) ≤ n && n < Nat.pow 2 63 then .fail .unclearBool
  else .fail .notBool

def bool : Value → Checked Bool
  | .bool b => .ok b
  | .int n => numberBool n
  | .double x => x.integer?.elim (.fail .notBool) numberBool
  | .text t => do
    let word := String.ofList ((← string t).toList.map Char.toLower)
    if trueWords.contains word then .ok true
    else if falseWords.contains word then .ok false
    else .fail .unclearBool
  | _ => .fail .notBool

def choice (choices : List (String × α)) : Value → Checked α
  | .text t => do
    match choices.lookup (← string t) with
    | some a => .ok a
    | none => .fail (.notOneOf (choices.map Prod.fst))
  | _ => .fail (.notOneOf (choices.map Prod.fst))

end Referral.Schema
