import Referral.Log.Event
import Referral.Log.Fill

namespace Referral.Log

structure Config where
  service : Text
  threshold : Nat

def levels : List (String × Nat) :=
  [("CRITICAL", 50), ("FATAL", 50), ("ERROR", 40), ("WARNING", 30), ("WARN", 30), ("INFO", 20),
   ("DEBUG", 10), ("NOTSET", 0)]

inductive LevelFault where
  | unknown
  | pattern
  | table
  deriving DecidableEq

def upperLetter (c : Char) : Char :=
  if c = 'ı' then 'I' else if c = 'ſ' then 'S' else c.toUpper

def Config.of (service : Text) (level : String) : Except LevelFault Config :=
  let name := String.ofList (level.toList.map upperLetter)
  match levels.lookup name with
  | some threshold => return ⟨service, threshold⟩
  | none =>
    throw (if name = "BASIC_FORMAT" then .pattern
      else if name = "_STYLES" then .table else .unknown)

/-- The fields of the line that a logger prints of an event. Name, level and logger stand over
fields of the same name; the service stands back behind one. -/
def Config.line? (c : Config) (logger : Text) (e : Event) : Option Members :=
  if e.level.weight < c.threshold then none
  else
    let fields : Members := if (e.fields.value? "service").isSome then e.fields
      else setRow "service" (.text c.service) e.fields
    some (setRow "level" (.text e.level.name) (setRow "logger" (.text logger)
      (setRow "event" (.text e.name) fields)))

end Referral.Log
