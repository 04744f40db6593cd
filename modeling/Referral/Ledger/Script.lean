import Referral.Ledger.Given
import Referral.Time.Iso

namespace Referral.Script

inductive Call where
  | insert (document : Value)
  | find (id : Value)
  | findReference (reference : Value)
  | ofUser (userId : Value)
  | update (id status at_ : Value)
  deriving Inhabited

inductive Step where
  | call (c : Call)
  | transaction (steps : List Step) (stopping failing : Bool)
  deriving Inhabited

inductive Fault where
  | given (fault : GivenFault)
  | unknownStatus
  | timeNotText
  | malformedTime
  | told

inductive Answer where
  | nothing
  | entry (e : Option Entry)
  | entries (es : List Entry)

inductive Item where
  | call (result : Except Fault Answer) (after : Store)
  | transaction (fault : Option Fault) (items : List Item) (after : Store)

def statusOf? : Value → Option Status
  | .text t => t.string?.bind Status.ofName?
  | _ => none

def timeOf : Value → Except Fault Timestamp
  | .text t => (Iso.readText? t).elim (throw .malformedTime) pure
  | _ => throw .timeNotText

/-- Makes one call. The new status is looked at before the time, and both before the entry. -/
def Call.run (s : Store) : Call → Except Fault (Answer × Store)
  | insert document => do
    let e ← (Entry.ofValue document).mapError (.given ∘ .document)
    return (.nothing, ← (s.insert e).mapError (.given ∘ .refused ∘ LedgerError.report))
  | find id => do
    let id ← (Given.lookupId? id).mapError .given
    return (.entry (id.bind s.find?), s)
  | findReference reference => do
    let reference ← (Given.lookupId? reference).mapError .given
    return (.entry (reference.bind s.findReference?), s)
  | ofUser userId => return (.entries ((Given.user? userId).elim [] s.ofUser), s)
  | update id status at_ => do
    let status ← (statusOf? status).elim (throw .unknownStatus) pure
    let at_ ← timeOf at_
    let id ← (Given.entryId id).mapError .given
    let (e, s) ← (s.update id status at_).mapError (.given ∘ .refused ∘ LedgerError.report)
    return (.entry (some e), s)

def runCall (s : Store) (c : Call) : Except Fault Answer × Store :=
  match c.run s with
  | .ok (answer, s) => (.ok answer, s)
  | .error fault => (.error fault, s)

mutual

def run (s : Store) : Step → Item × Store
  | .call c =>
    let (result, s) := runCall s c
    (.call result s, s)
  | .transaction steps stopping failing =>
    let (scope, inner) := s.openScope
    let (items, stopped, inner) := runAll stopping inner steps
    let fault := stopped.or (if failing then some .told else none)
    let s := inner.closeScope scope fault.isSome
    (.transaction fault items s, s)

/-- Runs steps in turn. With `stopping`, the first call that fails ends the run and has no item. -/
def runAll (stopping : Bool) (s : Store) : List Step → List Item × Option Fault × Store
  | [] => ([], none, s)
  | step :: rest =>
    match run s step with
    | (.call (.error fault) after, s) =>
      if stopping then ([], some fault, s)
      else
        let (items, stopped, s) := runAll stopping s rest
        (.call (.error fault) after :: items, stopped, s)
    | (item, s) =>
      let (items, stopped, s) := runAll stopping s rest
      (item :: items, stopped, s)

end

end Referral.Script
