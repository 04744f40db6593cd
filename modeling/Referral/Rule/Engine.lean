import Referral.Rule.Basic
import Referral.Rule.Key

namespace Referral

structure Match where
  ruleId : Value
  ruleName : Value
  outcomes : List Outcome

def Match.toValue (m : Match) : Value :=
  .map [("ruleId", m.ruleId), ("ruleName", m.ruleName),
    ("actions", .list (m.outcomes.map Outcome.toValue))]

def Rule.match? (context : Members) (r : Rule) : Option Match :=
  let outcomes := r.execute context
  if outcomes.isEmpty then none else some ⟨r.id, r.name, outcomes⟩

abbrev Engine := Table Key Rule

namespace Engine

/-- Adds a rule; one with the same identifier gives its place to it. -/
def add (e : Engine) (r : Rule) : Except ShapeFault Engine :=
  match Key.of? r.id with
  | some key => return e.put (key.toPut e.keys) r
  | none => throw .unfitKey

def ofList (rules : List Rule) : Except ShapeFault Engine := rules.foldlM add Table.empty

/-- Removes a rule. From an engine without rules nothing is removed, whatever the identifier. -/
def remove (e : Engine) (id : Value) : Except ShapeFault Engine :=
  match Key.of? id with
  | some key => return e.erase key
  | none => if e.rows.isEmpty then return e else throw .unfitKey

def find (e : Engine) (id : Value) : Except ShapeFault (Option Rule) :=
  match Key.of? id with
  | some key => return e.get? key
  | none => throw .unfitKey

def rules (e : Engine) : List Rule := e.values

def evaluate (e : Engine) (context : Members) : List Match :=
  e.rules.filterMap (Rule.match? context)

end Engine

end Referral
