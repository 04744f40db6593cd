import Referral.Rule.Copy
import Referral.Rule.Engine

namespace Referral

structure RuleStore where
  /-- Rules without their conditions and actions. -/
  records : Table Key Rule
  conditions : Table Key (List Condition)
  actions : Table Key (List Action)

namespace RuleStore

def empty : RuleStore := ⟨.empty, .empty, .empty⟩

/-- Stores a copy of the rule, if the stack has room to make it. -/
def insertWithin (s : RuleStore) (r : Rule) (room : Nat) : Except ShapeFault RuleStore :=
  if room < r.copySteps then throw .tooDeep
  else
    match Key.of? r.id with
    | some key =>
      let key := key.toPut s.records.keys
      return {
        records := s.records.put key { r with conditions := [], actions := [] }
        conditions := s.conditions.put key r.conditions
        actions := s.actions.put key r.actions }
    | none => throw .unfitKey

def insert (s : RuleStore) (r : Rule) : Except ShapeFault RuleStore := s.insertWithin r copyLimit

def assemble (s : RuleStore) (key : Key) (record : Rule) : Rule :=
  { record with
    conditions := (s.conditions.get? key).getD []
    actions := (s.actions.get? key).getD [] }

def find (s : RuleStore) (id : Value) : Except ShapeFault (Option Rule) :=
  match Key.of? id with
  | some key => return (s.records.get? key).map (s.assemble key)
  | none => throw .unfitKey

def list (s : RuleStore) : List Rule :=
  s.records.rows.map fun (key, record) => s.assemble key record

/-- Copies of the stored rules, if the stack has room to make them. -/
def listWithin (s : RuleStore) (room : Nat) : Except ShapeFault (List Rule) :=
  s.list.mapM fun r => if room < r.copySteps then throw .tooDeep else return r

/-- Deletes a rule, and tells whether it was there. In a store without rules nothing is there,
whatever the identifier. -/
def delete (s : RuleStore) (id : Value) : Except ShapeFault (Bool × RuleStore) :=
  match Key.of? id with
  | some key =>
    return (s.records.contains key,
      { records := s.records.erase key
        conditions := s.conditions.erase key
        actions := s.actions.erase key })
  | none => if s.records.rows.isEmpty then return (false, s) else throw .unfitKey

end RuleStore

end Referral
