import Referral.Http.Target
import Referral.Schema.Checked

namespace Referral.Http

structure Request where
  method : String
  target : Target
  body : String
  contentType : String

inductive Body where
  | json (v : Value)
  | text (s : String)

structure Response where
  status : Nat
  body : Body

def Request.parameter? (r : Request) (name : String) : Option String :=
  r.target.query.reverse.lookup name

def declaresJson (contentType : String) : Bool :=
  let kind := (contentType.toList.takeWhile (· ≠ ';')).map Char.toLower
  match (String.ofList (Text.trimBy Text.isBlank kind)).splitOn "/" with
  | ["application", subtype] => subtype = "json" || "+json".toList.isSuffixOf subtype.toList
  | _ => false

mutual

/-- Whether a value can be written as JSON: its doubles are numbers, no integer is too long and no
text has a lone surrogate. -/
def isWritable : Value → Bool
  | .int n => !tooLong n
  | .double x => x.isFinite
  | .text t => t.string?.isSome
  | .list elems => elemsWritable elems
  | .map members => membersWritable members
  | _ => true

def elemsWritable : List Value → Bool
  | [] => true
  | v :: vs => isWritable v && elemsWritable vs

def membersWritable : List (Text × Value) → Bool
  | [] => true
  | (key, v) :: rest => key.string?.isSome && isWritable v && membersWritable rest

end

mutual

/-- The value without the members that are kept private: those whose names start with `_sa`. -/
def withoutPrivate : Value → Value
  | .list elems => .list (elemsWithoutPrivate elems)
  | .map members => .map (membersWithoutPrivate members)
  | v => v

def elemsWithoutPrivate : List Value → List Value
  | [] => []
  | v :: vs => withoutPrivate v :: elemsWithoutPrivate vs

def membersWithoutPrivate : List (Text × Value) → List (Text × Value)
  | [] => []
  | (key, v) :: rest =>
    if "_sa".toList.isPrefixOf key.head.toList then membersWithoutPrivate rest
    else (key, withoutPrivate v) :: membersWithoutPrivate rest

end

def internalError : Response := ⟨500, .text "Internal Server Error"⟩

def answer (status : Nat) (v : Value) : Response :=
  if isWritable v then ⟨status, .json v⟩ else internalError

def ok (v : Value) : Response := answer 200 v

def detail (status : Nat) (text : String) : Response :=
  answer status (.map [("detail", .text text)])

def stepValue : Schema.Step → Value
  | .key name => .text name
  | .index i => .ofNat i

def faultValue (loc : List Value) (message : String) : Value :=
  .map [("loc", .list loc), ("msg", .text message)]

def invalid (faults : List Value) : Response :=
  answer 400 (.map [("code", .text "VALIDATION_ERROR"),
    ("message", .text "Missing or invalid fields"), ("details", .map [("errors", .list faults)])])

def ofFaults (faults : List Schema.Fault) : Response :=
  invalid (faults.map fun f => faultValue (f.loc.map stepValue) (f.reason.message .body))

end Referral.Http
