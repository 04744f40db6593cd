import Referral.Text.CharClass

namespace Referral.Http

inductive Route where
  | health
  | manual
  | createReward
  | listEntries
  | getEntry (id : String)
  | confirm (id : String)
  | pay (id : String)
  | reverse (id : String)
  | balance (userId : String)
  | userEntries (userId : String)
  | history (userId : String)
  | createRule
  | listRules
  | evaluate
  | getRule (id : String)
  | deleteRule (id : String)
  deriving DecidableEq

namespace Route

/-- The routes at a path that ends in a fixed name, split at its slashes; each has its method. Names
that are given are not empty. -/
def named : List String → List (String × Route)
  | ["health"] => [("GET", health)]
  | ["docs"] | ["docs", "oauth2-redirect"] | ["redoc"] | ["openapi.json"] =>
    [("GET", manual), ("HEAD", manual)]
  | ["ledger", "rewards"] => [("POST", createReward)]
  | ["ledger", "entries"] => [("GET", listEntries)]
  | ["ledger", "entries", id, action] =>
    if id.isEmpty then []
    else
      match action with
      | "confirm" => [("POST", confirm id)]
      | "pay" => [("POST", pay id)]
      | "reverse" => [("POST", reverse id)]
      | _ => []
  | ["ledger", "users", userId, view] =>
    if userId.isEmpty then []
    else
      match view with
      | "balance" => [("GET", balance userId)]
      | "entries" => [("GET", userEntries userId)]
      | "ledger" => [("GET", history userId)]
      | _ => []
  | ["rules"] => [("POST", createRule), ("GET", listRules)]
  | ["rules", "evaluate"] => [("POST", evaluate)]
  | _ => []

def given : List String → List (String × Route)
  | ["ledger", "entries", id] => if id.isEmpty then [] else [("GET", getEntry id)]
  | ["rules", id] => if id.isEmpty then [] else [("GET", getRule id), ("DELETE", deleteRule id)]
  | _ => []

def withoutBreak (path : String) : String :=
  match path.toList.reverse with
  | '\n' :: rest => String.ofList rest.reverse
  | _ => path

/-- The routes at a path. A line break may follow a fixed name, but belongs to a given one. -/
def atPath (path : String) : List (String × Route) :=
  match (withoutBreak path).splitOn "/", path.splitOn "/" with
  | "" :: fixed, "" :: names => named fixed ++ given names
  | _, _ => []

end Route

inductive Dispatch where
  | route (r : Route)
  | wrongMethod
  | redirect
  | unknown

def localPath (root path : String) : String :=
  match Text.afterWord? root.toList path.toList with
  | some [] => ""
  | some ('/' :: rest) => String.ofList ('/' :: rest)
  | _ => path

def otherEnding (path : String) : String :=
  let reversed := path.toList.reverse
  if reversed.head? = some '/' then String.ofList (reversed.dropWhile (· = '/')).reverse
  else path ++ "/"

def dispatch (root path method : String) : Dispatch :=
  let path := localPath root path
  match Route.atPath path with
  | [] =>
    if path ≠ "/" && !(Route.atPath (otherEnding path)).isEmpty then .redirect else .unknown
  | routes => ((routes.lookup method).map Dispatch.route).getD .wrongMethod

end Referral.Http
