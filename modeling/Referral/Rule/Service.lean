import Referral.Log.Event
import Referral.Rule.Authoring
import Referral.Rule.Store

namespace Referral

structure RuleState where
  store : RuleStore
  supply : Supply

inductive RuleError where
  | authoring (fault : AuthoringFault)
  | notFound (id : Value) (shown : Text)
  /-- There is no rule of the identifier, and its text is too long to say so. -/
  | unsayable
  | shape (fault : ShapeFault)

def missingRule (id : Value) (shown : Text) : Report :=
  ⟨.notFound, "Rule " ++ shown ++ " not found", [("rule_id", id)]⟩

def RuleError.missing (id : Value) : RuleError := id.plain?.elim .unsayable (.notFound id)

abbrev RuleM := ExceptT RuleError (StateM RuleState)

namespace RuleService

def insertWithin (r : Rule) (room : Nat) : RuleM Unit := fun s =>
  match s.store.insertWithin r room with
  | .ok store => (.ok (), { s with store := store })
  | .error fault => (.error (.shape fault), s)

def insert (r : Rule) : RuleM Unit := insertWithin r copyLimit

def create (source : Source) (request : RuleRequest) : RuleM Rule := do
  let r ← fun s =>
    match (Authoring.rule source request).run s.supply with
    | (.ok r, supply) => (.ok r, { s with supply := supply })
    | (.error fault, supply) => (.error (.authoring fault), { s with supply := supply })
  insert r
  return r

def find (s : RuleState) (id : Value) : Except RuleError Rule :=
  match s.store.find id with
  | .ok (some r) => return r
  | .ok none => throw (.missing id)
  | .error fault => throw (.shape fault)

def delete (id : Value) : RuleM Unit := fun s =>
  match s.store.delete id with
  | .ok (true, store) => (.ok (), { s with store := store })
  | .ok (false, store) => (.error (.missing id), { s with store := store })
  | .error fault => (.error (.shape fault), s)

def evaluate (s : RuleState) (context : Members) : Except ShapeFault (List Match) := do
  let engine ← Engine.ofList s.store.list
  return engine.evaluate context

def created (r : Rule) : Event :=
  .info "rule_created" [("rule_id", r.id), ("conditions", .ofNat r.conditions.length),
    ("actions", .ofNat r.actions.length)]

def deleted (id : Value) : Event := .info "rule_deleted" [("rule_id", id)]

def evaluated (s : RuleState) (matched : List Match) : Event :=
  .info "rules_evaluated"
    [("rules", .ofNat s.store.list.length), ("matched", .ofNat matched.length)]

end RuleService

end Referral
