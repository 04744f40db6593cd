import Referral.Ledger.Status
import Referral.Report

namespace Referral

inductive LedgerError where
  | entryNotFound (id : String)
  | alreadyReversed (id : String)
  | invalidTransition (id : String) (current target : Status)
  | duplicateReference (reference holder : String)
  | unreadableAmount
  | unacceptableAmount (shown : String)
  | rejectedReward (fault : Schema.Fault)
  | negativePage (limit offset : Int)

def dottedPath (loc : List Schema.Step) : String :=
  String.intercalate "." <| loc.map fun
    | .key name => name
    | .index i => decimalText i

def LedgerError.negativePageMessage : String := "limit and offset must be non-negative"

def missingEntry (id : Value) (shown : Text) : Report :=
  ⟨.notFound, "Entry " ++ shown ++ " not found", [("entry_id", id)]⟩

def LedgerError.report : LedgerError → Report
  | entryNotFound id => missingEntry (.text id) id
  | alreadyReversed id =>
    ⟨.alreadyReversed, "Entry " ++ id ++ " already reversed", [("entry_id", .text id)]⟩
  | invalidTransition id current target =>
    ⟨.invalidTransition,
      "Cannot move entry " ++ id ++ " from " ++ current.name ++ " to " ++ target.name,
      [("entry_id", .text id), ("from", .text current.name), ("to", .text target.name)]⟩
  | duplicateReference reference holder =>
    ⟨.duplicateReference, "Reference " ++ reference ++ " already used by entry " ++ holder,
      [("reference_id", .text reference), ("entry_id", .text holder)]⟩
  | unreadableAmount => ⟨.validation, "Invalid reward amount", [("field", .text "amount")]⟩
  | unacceptableAmount shown =>
    ⟨.validation, "Invalid reward amount: " ++ shown, [("field", .text "amount")]⟩
  | rejectedReward fault =>
    ⟨.validation, "Invalid reward action: " ++ fault.reason.message .caller,
      [("field", .text (dottedPath fault.loc))]⟩
  | negativePage limit offset =>
    ⟨.validation, negativePageMessage, [("limit", .int limit), ("offset", .int offset)]⟩

end Referral
