import Referral.Log.Line

namespace Referral.Log

structure Call where
  level : Level
  name : Value
  arguments : List Value
  fields : Members

inductive CallFault where
  | takenName
  | notRecord
  /-- There are arguments, but nothing to put them into, or a mapping that gives them lacks them. -/
  | nothingToFill
  | fill (fault : FillFault)
  | tooLong
  deriving DecidableEq

namespace Call

def parameters : List Text := ["self", "event", "method_name"]

def steering : List Text := ["exc_info", "stack_info"]

def givenArguments (v : Value) : Except CallFault (Option Arguments) :=
  if v.isFalsy then return none
  else
    match v with
    | .list [.map (member :: members)] => return some (.ofValue (.map (member :: members)))
    | .map [_] => throw .nothingToFill
    | .list _ | .map _ | .text _ => return some (.ofValue v)
    | _ => throw (.fill .wrongKind)

def argumentsOf (call : Call) : Except CallFault (Option Arguments) :=
  if call.arguments.isEmpty then
    givenArguments (Members.get call.fields "positional_args")
  else return some (.ofRow call.arguments)

def filledName (call : Call) : Except CallFault Value := do
  match ← call.argumentsOf with
  | none => return call.name
  | some a =>
    match call.name with
    | .text t => ((fill t a).map .text).mapError .fill
    | .null => throw .nothingToFill
    | _ => throw (.fill .wrongKind)

def isPrinted (call : Call) (row : Text × Value) : Bool :=
  !steering.contains row.1 &&
    (row.1 ≠ "positional_args" ||
      match row.2 with
      | .null => call.arguments.isEmpty
      | _ => false)

/-- The line of the call, if it is printed. Where it is not, neither text nor fields are looked at.
-/
def line? (c : Config) (logger : Text) (call : Call) : Except CallFault (Option Members) := do
  if call.fields.any fun row => parameters.contains row.1 then throw .takenName
  if call.level.weight < c.threshold then return none
  let hasRecord := match Members.get call.fields "_record" with
    | .null => false
    | _ => true
  if hasRecord then throw .notRecord
  let name ← call.filledName
  let fields : Members := call.fields.filter call.isPrinted
  let named : Members := match name with
    | .null => fields
    | v => setRow "event" v fields
  let placed : Members :=
    setRow "level" (.text call.level.name) (setRow "logger" (.text logger) named)
  let all : Members := if (Members.value? fields "service").isSome then placed
    else setRow "service" (.text c.service) placed
  if (Value.map all).plain?.isNone then throw .tooLong else return some all

end Call

end Referral.Log
