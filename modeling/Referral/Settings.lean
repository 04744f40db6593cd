import Referral.Json.Reader
import Referral.Schema.Integer

namespace Referral

structure Settings where
  environment : String
  logLevel : String
  serviceName : String
  defaultCurrency : String
  corsOrigins : List String
  rootPath : String
  host : String
  listenPort : Int

inductive SettingsFault where
  | invalid (faults : List Schema.Fault)
  | notJson (name : String)
  | tooDeep

namespace Settings

open Schema

def setting {α : Type} (ms : Members) (name : String) (default : α) (read : Value → Checked α) :
    Checked α :=
  match ms.value? name with
  | some v => (read v).within (.key name)
  | none => .ok default

def ofMembers (ms : Members) : Checked Settings :=
  (((((((Checked.app (.ok Settings.mk) (setting ms "env" "local" text)).app
    (setting ms "log_level" "info" text)).app
    (setting ms "service_name" "referral-ledger" text)).app
    (setting ms "default_currency" "USD" filledText)).app
    (setting ms "cors_origins" ["*"] (listOf text))).app
    (setting ms "root_path" "" text)).app
    (setting ms "host" "0.0.0.0" text)).app
    (setting ms "port" 8000 integer)

def settingName? (variable_ : String) : Option String :=
  (Text.afterWord? "referral_".toList (variable_.toList.map Char.toLower)).map String.ofList

/-- The member that a variable sets. The list of origins is JSON, and null leaves it unset. -/
def memberOf (name value : String) : Except SettingsFault (Option Value) :=
  if name = "cors_origins" then
    match Json.read value with
    | .ok .null => return none
    | .ok v => return some v
    | .error .tooDeep => throw .tooDeep
    | .error _ => throw (.notJson name)
  else return some (.text value)

def ofEnvironment (environment : List (String × String)) : Except SettingsFault Settings := do
  let given := environment.foldl (fun (rows : List (String × String)) (name, value) =>
    match settingName? name with
    | some name => setRow name value rows
    | none => rows) []
  let members ← given.filterMapM fun (name, value) => do
    return (← memberOf name value).map (name, ·)
  (ofMembers members).mapError .invalid

def toValue (s : Settings) : Value :=
  .map [("env", .text s.environment), ("log_level", .text s.logLevel),
    ("service_name", .text s.serviceName), ("default_currency", .text s.defaultCurrency),
    ("cors_origins", .list (s.corsOrigins.map fun (o : String) => .text o)),
    ("root_path", .text s.rootPath), ("host", .text s.host), ("port", .int s.listenPort)]

end Settings

end Referral
