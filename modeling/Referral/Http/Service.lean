import Referral.Award
import Referral.Http.Message
import Referral.Http.Route
import Referral.Json.Reader
import Referral.Ledger.Balance
import Referral.Log.Line
import Referral.Settings
import Referral.Text.Encoding

namespace Referral.Http

structure Service where
  ledger : Store
  rules : RuleStore
  supply : Supply

structure Config where
  settings : Settings
  source : Source
  log : Log.Config

def Config.of (settings : Settings) (source : Source) : Except Log.LevelFault Config :=
  (Log.Config.of settings.serviceName settings.logLevel).map (⟨settings, source, ·⟩)

structure Result where
  response : Response
  events : List (String × Event)
  service : Service

namespace Service

def start : Service := ⟨.empty, .empty, .fresh⟩

def storeRule (source : Source) (v : Value) (s : Service) : Except ShapeFault Service := do
  let (rule, supply) := Rule.read source v s.supply
  let rules ← s.rules.insert (← rule)
  return { s with rules := rules, supply := supply }

def ledgerConfig (c : Config) : LedgerConfig := ⟨c.source, c.settings.defaultCurrency⟩

def ledgerState (s : Service) : LedgerState := ⟨s.ledger, s.supply, 0⟩

def withLedger (s : Service) (l : LedgerState) : Service :=
  { s with ledger := l.store, supply := l.supply }

def ruleState (s : Service) : RuleState := ⟨s.rules, s.supply⟩

/-- The answer to a refused operation. One that is not the request's fault is logged. -/
def refused (path : String) (r : Report) (events : List (String × Event)) (s : Service) : Result :=
  let failed : List (String × Event) :=
    if r.kind.status < 500 then []
    else [("api.app", ⟨"request_failed", .error, [("path", .text path), ("code", .text r.kind.code),
      ("error", .text r.message)]⟩)]
  ⟨answer r.kind.status r.toValue, events ++ failed, s⟩

def told (fits : Bool) (v : Value) : Response := if fits then ok v else internalError

def queried {α : Type} (path : String) (s : Service) (x : Except QueryFault α) (f : α → Response) :
    Result :=
  match x with
  | .ok a => ⟨f a, [], s⟩
  | .error (.refused e) => refused path e.report [] s
  | .error _ => ⟨internalError, [], s⟩

def ofEntry (e : Entry) : Response := told (e.fits 0) e.toValue

def ofEntries (es : List Entry) : Response :=
  told (es.all (Entry.fits 0)) (.list (es.map Entry.toValue))

def perform (c : Config) (path : String) (command : Ledger.Command) (s : Service) : Result :=
  match Ledger.perform (ledgerConfig c) command s.ledgerState with
  | (.ok r, l) => ⟨told r.fits r.toValue, [("ledger.service", r.event)], s.withLedger l⟩
  | (.error e, l) => refused path e.report [] (s.withLedger l)

inductive Content where
  | absent
  | document (v : Value)
  | opaqueText

/-- The JSON text of a body, in the encoding that its first bytes tell, and without the byte order
mark at its start, which is no part of its text. -/
def bodyText? (body : String) : Option String :=
  match body.toList with
  | '\ufeff' :: rest => some (String.ofList rest)
  | _ =>
    let bytes := body.toUTF8.toList.map UInt8.toNat
    (Text.decode? bytes (.of bytes)).map String.ofList

def content (r : Request) : Except Response Content :=
  if r.body.isEmpty then return .absent
  else if !declaresJson r.contentType then return .opaqueText
  else
    match (bodyText? r.body).map Json.read with
    | some (.ok v) => return .document v
    | some (.error (.malformed offset)) =>
      throw (invalid [faultValue [.text "body", .ofNat offset] "JSON decode error"])
    | none | some (.error _) => throw (detail 400 "There was an error parsing the body")

def requiredBody {α : Type} (r : Request) (read : Value → Schema.Checked α) :
    Except Response α := do
  let checked : Schema.Checked α ←
    match ← content r with
    | .absent => pure (Schema.Checked.fail .missing)
    | .document v => pure (read v)
    | .opaqueText => pure (Schema.Checked.fail (.notDocument ""))
  (checked.within (.key "body")).mapError ofFaults

def optionalBody {α : Type} (r : Request) (read : Value → Schema.Checked α) :
    Except Response (Option α) := do
  match ← content r with
  | .absent | .document .null => return none
  | _ => (requiredBody r read).map some

def integerParameter (r : Request) (name : String) (default : Int) : Schema.Checked Int :=
  match r.parameter? name with
  | none => .ok default
  | some s => ((Schema.integer (.text s)).within (.key name)).within (.key "query")

def pageOf (r : Request) : Except Response (Int × Int) :=
  ((Schema.Checked.app (.ok Prod.mk) (integerParameter r "limit" 50)).app
    (integerParameter r "offset" 0)).mapError ofFaults

def ruleRefused (path : String) (e : RuleError) (s : Service) : Result :=
  match e with
  | .authoring fault => refused path fault.report [] s
  | .notFound id shown => refused path (missingRule id shown) [] s
  | .unsayable | .shape _ => ⟨internalError, [], s⟩

def aboutRules (params : List Params) (v : Value) : Response :=
  told (params.all Params.keysWritable) (withoutPrivate v)

def ruleParams (r : Rule) : List Params := r.actions.map (·.params)

def matchParams (m : Match) : List Params :=
  m.outcomes.filterMap fun
    | .passthrough _ params => some params
    | _ => none

def createRule (c : Config) (path : String) (request : RuleRequest) (s : Service) : Result :=
  match RuleService.create c.source request s.ruleState with
  | (.ok r, st) =>
    ⟨aboutRules (ruleParams r) (.map [("success", .bool true), ("rule", r.toValue)]),
      [("rules.service", RuleService.created r)], { s with rules := st.store, supply := st.supply }⟩
  | (.error e, st) => ruleRefused path e { s with rules := st.store, supply := st.supply }

def getRule (path id : String) (s : Service) : Result :=
  match RuleService.find s.ruleState (.text id) with
  | .ok r => ⟨aboutRules (ruleParams r) r.toValue, [], s⟩
  | .error e => ruleRefused path e s

def deleteRule (path id : String) (s : Service) : Result :=
  match RuleService.delete (.text id) s.ruleState with
  | (.ok _, st) =>
    ⟨ok (.map [("success", .bool true)]), [("rules.service", RuleService.deleted (.text id))],
      { s with rules := st.store }⟩
  | (.error e, st) => ruleRefused path e { s with rules := st.store }

def evaluate (c : Config) (path : String) (request : EvaluationRequest) (s : Service) : Result :=
  match RuleService.evaluate s.ruleState request.context with
  | .error _ => ⟨internalError, [], s⟩
  | .ok matched =>
    let (receipts, fault, l) :=
      Award.record (ledgerConfig c) (Award.requested request matched) s.ledgerState
    let s' := s.withLedger l
    let events := ("rules.service", RuleService.evaluated s.ruleState matched) ::
      receipts.map fun r => ("ledger.service", r.event)
    match fault with
    | some (.refused e) => refused path e.report events s'
    | some _ => ⟨internalError, events, s'⟩
    | none =>
      ⟨aboutRules (matched.flatMap matchParams)
        (.map [("matches", .list (matched.map Match.toValue)),
          ("rewards", .list (receipts.map Receipt.toValue))]), events, s'⟩

def reading {α : Type} (s : Service) (x : Except Response α) (f : α → Result) : Result :=
  match x with
  | .ok a => f a
  | .error response => ⟨response, [], s⟩

def serve (c : Config) (r : Request) (s : Service) : Route → Result
  | .health =>
    ⟨ok (.map [("status", .text "healthy"), ("service", .text "referral-ledger")]), [], s⟩
  | .manual => ⟨⟨200, .text ""⟩, [], s⟩
  | .createReward =>
    reading s (requiredBody r RewardRequest.ofValue) fun q =>
      perform c r.target.loggedPath (.create q) s
  | .listEntries => queried r.target.loggedPath s (Ledger.allEntries s.ledger) ofEntries
  | .getEntry id => queried r.target.loggedPath s (Ledger.find? s.ledger id) ofEntry
  | .confirm id => perform c r.target.loggedPath (.confirm id) s
  | .pay id => perform c r.target.loggedPath (.pay id) s
  | .reverse id =>
    reading s (optionalBody r ReversalRequest.ofValue) fun q =>
      perform c r.target.loggedPath (.reverse id (q.bind (·.reason))) s
  | .balance userId =>
    queried r.target.loggedPath s (Ledger.balance s.ledger userId (r.parameter? "currency"))
      (ok ∘ Balance.toValue)
  | .userEntries userId =>
    queried r.target.loggedPath s (Ledger.userEntries s.ledger userId) ofEntries
  | .history userId =>
    reading s (pageOf r) fun (limit, offset) =>
      queried r.target.loggedPath s (Ledger.history s.ledger userId limit offset) fun h =>
        told h.fits h.toValue
  | .createRule =>
    reading s (requiredBody r RuleRequest.ofValue) fun q => createRule c r.target.loggedPath q s
  | .listRules =>
    ⟨aboutRules (s.rules.list.flatMap ruleParams) (.list (s.rules.list.map Rule.toValue)), [], s⟩
  | .evaluate =>
    reading s (requiredBody r EvaluationRequest.ofValue) fun q => evaluate c r.target.loggedPath q s
  | .getRule id => getRule r.target.loggedPath id s
  | .deleteRule id => deleteRule r.target.loggedPath id s

def dispatched (c : Config) (method : String) (r : Request) (s : Service) : Result :=
  match dispatch c.settings.rootPath r.target.path method with
  | .route route => serve c r s route
  | .wrongMethod => ⟨detail 405 "Method Not Allowed", [], s⟩
  | .redirect => ⟨⟨307, .text ""⟩, [], s⟩
  | .unknown => ⟨detail 404 "Not Found", [], s⟩

/-- Handles a request. The method `HEAD` asks for an answer without its body. -/
def handle (c : Config) (r : Request) (s : Service) : Result :=
  let method := r.method.map Char.toUpper
  let result := dispatched c method r s
  if method = "HEAD" then { result with response := ⟨result.response.status, .text ""⟩ }
  else result

def lines (c : Config) (r : Result) : List Members :=
  r.events.filterMap fun (logger, e) => c.log.line? logger e

end Service

end Referral.Http
